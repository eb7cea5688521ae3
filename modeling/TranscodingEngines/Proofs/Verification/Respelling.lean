import TranscodingEngines.Verification
import TranscodingEngines.Proofs.Config.Respelling

/-!
# Verifying respelled engines

Nothing in verification looks at the identifier of an engine, so an engine under another identifier
is verified alike.
-/

set_option autoImplicit false

namespace TranscodingEngines

/-! ## Engines -/

namespace Engine

def withId (e : Engine) (id : EngineId) : Engine := { e with id := id }

/-- The second engine is the first one under a respelled identifier. -/
structure Respells (e e' : Engine) : Prop where
  same : e.id.same e'.id = true
  eq : e' = e.withId e'.id

variable {e e' : Engine}

theorem Respells.refl (e : Engine) : e.Respells e := ⟨EngineId.same_self _, rfl⟩

theorem Respells.withId {id : EngineId} (h : e.id.same id = true) : e.Respells (e.withId id) :=
  ⟨h, rfl⟩

theorem Respells.ofText (e : Engine) {s t : String} (h : Text.Respelt s t) :
    (e.withId (.ofText s)).Respells (e.withId (.ofText t)) := ⟨h.same_ofText, rfl⟩

/-- A reader of engines that does not read the identifier cannot tell the two apart. -/
theorem Respells.congr {α : Type} {f : Engine → α} (h : e.Respells e')
    (hf : ∀ id, f (e.withId id) = f e) : f e = f e' := by
  rw [h.eq, hf]

/-- A change that leaves the identifier alone, and does not read it, keeps the two alike. -/
theorem Respells.map {f : Engine → Engine} (h : e.Respells e')
    (hf : ∀ id, f (e.withId id) = (f e).withId id) (hId : (f e).id = e.id) :
    (f e).Respells (f e') := by
  rw [h.eq, hf]
  refine .withId ?_
  rw [hId]
  exact h.same

theorem Respells.name_eq (h : e.Respells e') : e.name = e'.name := h.congr fun _ => rfl

theorem Respells.isAvailable_eq (h : e.Respells e') : e.isAvailable = e'.isAvailable :=
  h.congr fun _ => rfl

theorem Respells.enabled_eq (h : e.Respells e') : e.enabled = e'.enabled := h.congr fun _ => rfl

theorem Respells.isActive_eq (h : e.Respells e') : e.isActive = e'.isActive := h.congr fun _ => rfl

theorem record_withId (e : Engine) (id : EngineId) (r : Role) (f : Finding) :
    (e.withId id).record r f = (e.record r f).withId id := by
  cases f <;> rfl

end Engine

/-! ## Verification -/

namespace Environment

/-- A change of engines that examinations do not see, and that findings leave as it is, is carried
through a verification. -/
theorem verifyRoles_map (env : Environment) {f : Engine → Engine}
    (hExamine : ∀ e r ledger, env.examine (f e) r ledger = env.examine e r ledger)
    (hRecord : ∀ e r finding, (f e).record r finding = f (e.record r finding)) (e : Engine)
    (roles : List Role) (ledger : ProbeLedger) : env.verifyRoles (f e) roles ledger
      = { env.verifyRoles e roles ledger with
          engine := f (env.verifyRoles e roles ledger).engine } := by
  induction roles generalizing e ledger with
  | nil => rfl
  | cons r rest ih =>
    rw [verifyRoles, verifyRoles, hExamine]
    obtain ⟨finding, later, events⟩ := env.examine e r ledger
    cases finding with
    | interrupted path => simp only [hRecord]
    | refused reason => simp only [hRecord, ih]
    | settled path availability => simp only [hRecord, ih]

def Verified.withId (v : Verified) (id : EngineId) : Verified :=
  { v with engine := v.engine.withId id }

theorem examine_withId (env : Environment) (e : Engine) (id : EngineId) (r : Role)
    (ledger : ProbeLedger) : env.examine (e.withId id) r ledger = env.examine e r ledger := rfl

theorem verifyRoles_withId (env : Environment) (e : Engine) (id : EngineId) (roles : List Role)
    (ledger : ProbeLedger) :
    env.verifyRoles (e.withId id) roles ledger = (env.verifyRoles e roles ledger).withId id :=
  env.verifyRoles_map (f := (·.withId id)) (fun e => env.examine_withId e id)
    (fun e => e.record_withId id) e roles ledger

theorem verify_withId (env : Environment) (e : Engine) (id : EngineId) (ledger : ProbeLedger) :
    env.verify (e.withId id) ledger = (env.verify e ledger).withId id :=
  env.verifyRoles_withId e id e.roles ledger

/-- Chooses the role to work with, unless verification was interrupted. -/
def Verified.settle (v : Verified) (preferred : Option Role) : Verified :=
  match v.interruptedAt with
  | none => { v with engine := v.engine.chooseRole preferred }
  | some r => { v with engine := { v.engine.chooseRole preferred with currentRole := r } }

theorem Verified.settle_withId (v : Verified) (id : EngineId) (preferred : Option Role) :
    (v.withId id).settle preferred = (v.settle preferred).withId id := by
  obtain ⟨e, interruptedAt, ledger, events⟩ := v
  cases interruptedAt <;> rfl

end Environment

end TranscodingEngines
