import Mathlib.Data.List.Forall2
import TranscodingEngines.Proofs.Registry.Addressing
import TranscodingEngines.Proofs.Verification.Respelling

/-!
# Registration starts afresh

Registration reads the declaration of an engine and nothing else. What an earlier registration made
of the engine, which role was chosen for it and whether it was enabled leave no trace: an engine
copied out of a registry is registered like the one that had been handed in there.
-/

set_option autoImplicit false

namespace TranscodingEngines

/-! ## Engines declared alike -/

namespace Engine

/-- The two engines were declared alike. They may differ in what verification made of their roles,
in their current roles, and in being enabled. -/
structure DeclaredAlike (e e' : Engine) : Prop where
  id : e.id = e'.id
  name : e.name = e'.name
  family : e.family = e'.family
  purpose : e.purpose = e'.purpose
  requiresAvisynth : e.requiresAvisynth = e'.requiresAvisynth
  defaultRole : e.defaultRole = e'.defaultRole
  /-- They declare the same roles, with the same paths. -/
  configured : ∀ r, (e.executables.get r).map (·.configured)
    = (e'.executables.get r).map (·.configured)

theorem configured_eq_of_declaration {e e' : Engine} (h : e.declaration = e'.declaration)
    (r : Role) : (e.executables.get r).map (·.configured)
      = (e'.executables.get r).map (·.configured) := by
  have hState := congrArg (fun d => (d.executables.get r).map (·.configured)) h
  simpa only [get_declaration, Option.map_map, Function.comp_def, RoleState.unverified] using hState

theorem declaredAlike_iff {e e' : Engine} :
    e.DeclaredAlike e' ↔ e.declaration = e'.declaration := by
  constructor
  · intro h
    simp only [declaration, standing, forgetVerification, h.id, h.name, h.family, h.purpose,
      h.requiresAvisynth, h.defaultRole, forget_congr h.configured]
  · intro h
    exact ⟨id_eq_of_declaration h, name_eq_of_declaration h, family_eq_of_declaration h,
      congrArg (·.purpose) h, congrArg (·.requiresAvisynth) h, defaultRole_eq_of_declaration h,
      configured_eq_of_declaration h⟩

def inRole (e : Engine) (r : Role) : Engine := { e with currentRole := r }

theorem record_inRole (e : Engine) (q r : Role) (f : Finding) :
    (e.inRole q).record r f = (e.record r f).inRole q := by
  cases f <;> rfl

theorem fresh_declaration (e : Engine) (enabled : Bool) :
    { e.declaration.forgetVerification with enabled := enabled }
      = { e.forgetVerification with enabled := enabled }.inRole e.defaultRole := by
  have hForget := forget_congr (t := e.declaration.executables) (u := e.executables) (by
    intro r
    rw [get_declaration, Option.map_map]
    rfl)
  simp only [forgetVerification, hForget]
  rfl

end Engine

/-! ## Verification -/

namespace Environment

theorem verify_inRole (env : Environment) (e : Engine) (q : Role) (ledger : ProbeLedger) :
    env.verify (e.inRole q) ledger
      = { env.verify e ledger with engine := (env.verify e ledger).engine.inRole q } :=
  env.verifyRoles_map (f := (·.inRole q)) (fun _ _ _ => rfl) (fun e => e.record_inRole q) e e.roles
    ledger

theorem Verified.settle_inRole (v : Verified) (q : Role) (preferred : Option Role) :
    { v with engine := v.engine.inRole q }.settle preferred = v.settle preferred := by
  obtain ⟨e, interruptedAt, ledger, events⟩ := v
  cases interruptedAt <;> rfl

end Environment

/-! ## Registration -/

namespace Registry

variable {g : Registry}

theorem prepare_declaration (g : Registry) (env : Environment) (e : Engine) :
    g.prepare env e.declaration = g.prepare env e := by
  let fresh : Engine := { e.forgetVerification with enabled := g.settings.isEnabled e.id }
  have hFresh := e.fresh_declaration (g.settings.isEnabled e.id)
  calc g.prepare env e.declaration
      = (env.verify { e.declaration.forgetVerification with
          enabled := g.settings.isEnabled e.id } g.ledger).settle
            (g.settings.preferredRole e.id) := rfl
    _ = (env.verify fresh g.ledger).settle (g.settings.preferredRole e.id) := by
        rw [hFresh, env.verify_inRole, Environment.Verified.settle_inRole]
    _ = g.prepare env e := rfl

theorem register_declaration (g : Registry) (env : Environment) (e : Engine) :
    g.register env e.declaration = g.register env e := by
  rw [register, register, prepare_declaration]
  rfl

theorem register_congr (g : Registry) (env : Environment) {e e' : Engine}
    (h : e.DeclaredAlike e') : g.register env e = g.register env e' := by
  rw [← register_declaration, Engine.declaredAlike_iff.mp h, register_declaration]

/-! ## Histories -/

/-- The two operations are the same, or register engines that were declared alike. -/
inductive DeclareAlike : Operation → Operation → Prop
  | register {e e' : Engine} (h : e.DeclaredAlike e') :
      DeclareAlike (.register e) (.register e')
  | same (operation : Operation) : DeclareAlike operation operation

/-- The two histories meet the same environments with operations that declare alike. -/
abbrev HistoriesDeclareAlike : List (Environment × Operation) → List (Environment × Operation) →
    Prop :=
  List.Forall₂ fun step step' => step.1 = step'.1 ∧ DeclareAlike step.2 step'.2

theorem apply_congr (g : Registry) (env : Environment) {operation operation' : Operation}
    (h : DeclareAlike operation operation') : g.apply env operation = g.apply env operation' := by
  cases h with
  | register hEngine => exact g.register_congr env hEngine
  | same => rfl

theorem applyAll_congr {history history' : List (Environment × Operation)}
    (h : HistoriesDeclareAlike history history') : g.applyAll history = g.applyAll history' := by
  induction h generalizing g with
  | nil => rfl
  | @cons step step' rest rest' hStep _ ih =>
    obtain ⟨env, operation⟩ := step
    obtain ⟨env', operation'⟩ := step'
    obtain ⟨rfl, hOperation⟩ := hStep
    rw [applyAll_cons, applyAll_cons, g.apply_congr env hOperation]
    exact ih

/-- An engine that is looked up in a registry was declared like one that had been handed in. -/
theorem exists_declaredAlike {settings : Settings} {history : List (Environment × Operation)}
    {raw : String} {copy : Engine}
    (h : ((empty settings).applyAll history).lookup raw = some copy) :
    ∃ a ∈ (empty settings).log history, copy.DeclaredAlike a.engine := by
  have hRun := (empty settings).run_applyAll history
  obtain ⟨a, ha, hStanding⟩ := hRun.exists_admission rfl (of_lookup_eq_some h).1
  refine ⟨a, ha, Engine.declaredAlike_iff.mpr ?_⟩
  rw [← Engine.declaration_eq_of_standing hStanding, a.declaration_verified]

/-- Engines that were declared alike are registered alike, with the same result, the same registry,
the same calls and the same reports. So a copy of an engine that is looked up anywhere is registered
like the engine that had been handed in there, and histories that differ in such engines only lead
to one registry, which answers every further operation alike. -/
theorem register_forgets :
    (∀ (g : Registry) (env : Environment) (e e' : Engine), e.DeclaredAlike e' →
      g.register env e = g.register env e') ∧
    (∀ settings history raw copy, ((empty settings).applyAll history).lookup raw = some copy →
      ∃ a ∈ (empty settings).log history, copy.DeclaredAlike a.engine ∧
        ∀ (g : Registry) (env : Environment), g.register env copy = g.register env a.engine) ∧
    ∀ (g : Registry) (history history' : List (Environment × Operation)),
      HistoriesDeclareAlike history history' → g.applyAll history = g.applyAll history' ∧
        ∀ env operation operation', DeclareAlike operation operation' →
          (g.applyAll history).apply env operation = (g.applyAll history').apply env operation' := by
  refine ⟨fun g env _ _ h => g.register_congr env h, ?_, ?_⟩
  · intro settings history raw copy h
    obtain ⟨a, ha, hAlike⟩ := exists_declaredAlike h
    exact ⟨a, ha, hAlike, fun g env => g.register_congr env hAlike⟩
  · intro g history history' h
    have hReached : g.applyAll history = g.applyAll history' := applyAll_congr h
    refine ⟨hReached, fun env operation operation' hOperation => ?_⟩
    rw [← hReached]
    exact (g.applyAll history).apply_congr env hOperation

/-- The half-installed engine is registered, disabled and moved to its custom role. The copy that is
looked up then is registered elsewhere like the engine that was never verified. -/
theorem register_forgets_halfInstalled :
    let history := [(answering, Operation.register halfInstalled),
      (answering, .setEnabled "ffmpegvideo" false), (answering, .selectRole "ffmpegvideo" .custom)]
    ∃ copy ∈ ((empty .none).applyAll history).lookup "FFmpegVideo",
      copy.enabled = false ∧ copy.currentRole = .custom ∧ copy.isAvailable = true ∧
        halfInstalled.isAvailable = false ∧ copy.DeclaredAlike halfInstalled ∧
        (empty .none).register answering copy = (empty .none).register answering halfInstalled := by
  intro history
  have hCopy : ∃ copy ∈ ((empty .none).applyAll history).lookup "FFmpegVideo",
      copy.enabled = false ∧ copy.currentRole = .custom ∧ copy.isAvailable = true ∧
        copy.declaration = halfInstalled.declaration := by decide +kernel
  obtain ⟨copy, hLookup, hEnabled, hRole, hAvailable, hDeclaration⟩ := hCopy
  have hAlike := Engine.declaredAlike_iff.mpr hDeclaration
  exact ⟨copy, hLookup, hEnabled, hRole, hAvailable, rfl, hAlike,
    register_forgets.1 (empty .none) answering copy halfInstalled hAlike⟩

end Registry

end TranscodingEngines
