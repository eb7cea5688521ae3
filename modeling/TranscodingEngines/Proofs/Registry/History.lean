import Mathlib.Data.List.Pairwise
import TranscodingEngines.Registry.Operation
import TranscodingEngines.Proofs.Registry.Admission
import TranscodingEngines.Proofs.Registry.Order

/-!
# Histories of a registry

Whatever the operations, a registry changes in three ways only: an engine that was not known is
admitted, an engine is enabled or disabled or moved to another role, or settings are put in force
and the list is sorted by them. The log of a history is the list of its admissions. An engine of the
list is, but for being enabled and for its current role, what its admission made of it, and the
ledger has grown by the exchanges of the admissions.
-/

set_option autoImplicit false

namespace TranscodingEngines

def Admission.after (a : Admission) : Registry :=
  { a.registry with
    engines := sortByPriority a.registry.settings (a.registry.engines ++ [a.verified.engine])
    ledger := a.verified.ledger }

namespace Registry

def knows (g : Registry) (id : EngineId) : Bool := g.engines.any (·.id.same id)

theorem knows_eq_false_iff {g : Registry} {id : EngineId} :
    g.knows id = false ↔ ∀ e ∈ g.engines, e.id.same id = false := by
  simp [knows]

theorem register_of_knows {g : Registry} {e : Engine} (env : Environment)
    (h : g.knows e.id = true) : (g.register env e).result = .ok () ∧
      (g.register env e).registry = g := by
  have hAny : g.engines.any (·.id.same e.id) = true := h
  rw [register, if_pos hAny]
  exact ⟨rfl, rfl⟩

theorem register_of_new {g : Registry} {e : Engine} (env : Environment)
    (h : g.knows e.id = false) :
    (g.register env e).result
      = (if (⟨g, env, e⟩ : Admission).verified.interruptedAt.isSome then
          .error (.interrupted e.name) else .ok ()) ∧
      (g.register env e).registry = (⟨g, env, e⟩ : Admission).after := by
  have hAny : ¬ g.engines.any (·.id.same e.id) = true := ne_true_of_eq_false h
  rw [register, if_neg hAny]
  exact ⟨rfl, rfl⟩

/-- An engine that none of the others ranks behind is put at the end of the list. -/
theorem engines_register_of_last {g : Registry} {e : Engine} (env : Environment)
    (hNew : g.knows e.id = false) (hSorted : g.Sorted)
    (hLast : ∀ k ∈ g.engines, g.settings.rankOf k ≤ g.settings.rankOfId e.id) :
    (g.register env e).registry.engines
      = g.engines ++ [(⟨g, env, e⟩ : Admission).verified.engine] := by
  rw [(register_of_new env hNew).2, Admission.after]
  refine sortByPriority_of_sorted g.settings (List.pairwise_append.mpr
    ⟨hSorted, List.pairwise_singleton _ _, ?_⟩)
  intro k hk x hx
  have hRank := hLast k hk
  rw [← (⟨g, env, e⟩ : Admission).id_verified] at hRank
  rw [List.mem_singleton.mp hx]
  exact hRank

/-! ## The log -/

/-- The admission that registering an engine amounts to, if it is one. -/
def admission? (g : Registry) (env : Environment) (e : Engine) : List Admission :=
  if g.knows e.id then [] else [⟨g, env, e⟩]

/-- The admissions that registering engines up to the first interruption amounts to. -/
def admissionsOfAll (g : Registry) (env : Environment) : List Engine → List Admission
  | [] => []
  | e :: rest =>
    g.admission? env e ++
      match (g.register env e).result with
      | .error _ => []
      | .ok () => (g.register env e).registry.admissionsOfAll env rest

def admissions (g : Registry) (env : Environment) : Operation → List Admission
  | .register e => g.admission? env e
  | .registerBuiltin tools => g.admissionsOfAll env (Catalog.engines tools env.platform)
  | _ => []

def log (g : Registry) : List (Environment × Operation) → List Admission
  | [] => []
  | (env, operation) :: rest =>
    g.admissions env operation ++ (g.apply env operation).registry.log rest

/-- How a registry comes about from another, with the admissions on the way. -/
inductive Run (start : Registry) : List Admission → Registry → Prop
  | refl : Run start [] start
  | enroll {log : List Admission} {g : Registry} (h : Run start log g) (env : Environment)
      (e : Engine) (hNew : g.knows e.id = false) :
      Run start (log ++ [⟨g, env, e⟩]) (Admission.after ⟨g, env, e⟩)
  | change {log : List Admission} {g : Registry} (h : Run start log g) (p : Engine → Bool)
      {f : Engine → Engine} (hStanding : ∀ e, (f e).standing = e.standing) :
      Run start log { g with engines := modifyFirst p f g.engines }
  | adopt {log : List Admission} {g : Registry} (h : Run start log g) (settings : Settings) :
      Run start log (g.updateSettings settings)

theorem Run.trans {g m n : Registry} {log more : List Admission} (h : Run g log m)
    (h' : Run m more n) : Run g (log ++ more) n := by
  induction h' with
  | refl => simpa using h
  | enroll _ env e hNew ih =>
    rw [← List.append_assoc]
    exact ih.enroll env e hNew
  | change _ p hStanding ih => exact ih.change p hStanding
  | adopt _ settings ih => exact ih.adopt settings

theorem run_register (g : Registry) (env : Environment) (e : Engine) :
    Run g (g.admission? env e) (g.register env e).registry := by
  cases h : g.knows e.id with
  | true =>
    rw [admission?, if_pos h, (register_of_knows env h).2]
    exact .refl
  | false =>
    rw [admission?, if_neg (ne_true_of_eq_false h), (register_of_new env h).2]
    exact Run.refl.enroll env e h

theorem run_registerAll (g : Registry) (env : Environment) (engines : List Engine) :
    Run g (g.admissionsOfAll env engines) (g.registerAll env engines).registry := by
  induction engines generalizing g with
  | nil => exact .refl
  | cons e rest ih =>
    have hFirst := g.run_register env e
    rw [admissionsOfAll, registerAll]
    cases (g.register env e).result with
    | error cause =>
      rw [List.append_nil]
      exact hFirst
    | ok => exact hFirst.trans (ih _)

theorem run_modify (g : Registry) (id : String) {f : Engine → Engine}
    (report : Engine → List Log.Event) (hStanding : ∀ e, (f e).standing = e.standing) :
    Run g [] (g.modify id f report).registry := by
  rw [modify]
  split
  · exact .refl
  · split
    · exact .refl
    · exact Run.refl.change _ hStanding

theorem run_apply (g : Registry) (env : Environment) (operation : Operation) :
    Run g (g.admissions env operation) (g.apply env operation).registry := by
  cases operation with
  | register e => exact g.run_register env e
  | registerBuiltin tools => exact g.run_registerAll env _
  | setEnabled id enabled => exact g.run_modify id _ fun _ => rfl
  | selectRole id r =>
    refine g.run_modify id _ fun e => ?_
    split <;> rfl
  | sort => exact Run.refl.adopt g.settings
  | updateSettings settings => exact Run.refl.adopt settings

theorem run_applyAll (g : Registry) (history : List (Environment × Operation)) :
    Run g (g.log history) (g.applyAll history) := by
  induction history generalizing g with
  | nil => exact .refl
  | cons step rest ih =>
    obtain ⟨env, operation⟩ := step
    rw [log, applyAll_cons]
    exact (g.run_apply env operation).trans (ih _)

/-! ## What runs preserve -/

theorem order_change {g : Registry} (p : Engine → Bool) {f : Engine → Engine}
    (hStanding : ∀ e, (f e).standing = e.standing) :
    Registry.order { g with engines := modifyFirst p f g.engines } = g.order :=
  map_modifyFirst p _ (fun e => Engine.id_eq_of_standing (hStanding e)) g.engines

namespace Run

variable {start g : Registry} {log : List Admission}

/-- But for being enabled and the current role, the list holds what was there and what was
admitted. -/
theorem standing_perm (h : Run start log g) : (g.engines.map Engine.standing).Perm
    (start.engines.map Engine.standing ++ log.map (·.verified.engine.standing)) := by
  induction h with
  | refl => simp
  | @enroll log g _ env e hNew ih =>
    have hSort := (sortByPriority_perm g.settings
      (g.engines ++ [(⟨g, env, e⟩ : Admission).verified.engine])).map Engine.standing
    rw [List.map_append] at hSort
    rw [List.map_append, ← List.append_assoc]
    exact hSort.trans (ih.append_right _)
  | change _ p hStanding ih => simpa only [map_modifyFirst p _ hStanding] using ih
  | adopt _ settings ih => exact ((sortByPriority_perm settings _).map _).trans ih

theorem exists_admission {e : Engine} (h : Run start log g) (hStart : start.engines = [])
    (he : e ∈ g.engines) : ∃ a ∈ log,
    a.verified.engine.standing = e.standing := by
  have hPerm := h.standing_perm
  rw [hStart, List.map_nil, List.nil_append] at hPerm
  exact List.mem_map.mp (hPerm.mem_iff.mp (List.mem_map_of_mem he))

theorem grows (h : Run start log g) :
    start.ledger.Grows (log.flatMap Admission.exchanges) g.ledger := by
  induction h with
  | refl => exact .refl
  | enroll _ env e hNew ih =>
    rw [List.flatMap_append, List.flatMap_singleton]
    exact ih.trans (Admission.mk _ env e).grows
  | change _ p hStanding ih => exact ih
  | adopt _ settings ih => exact ih

theorem sorted (h : Run start log g) (hStart : start.Sorted) : g.Sorted := by
  induction h with
  | refl => exact hStart
  | @enroll log g _ env e hNew ih => exact sortByPriority_sorted g.settings _
  | @change log g _ p f hStanding ih =>
    rw [sorted_iff, order_change p hStanding]
    exact sorted_iff.mp ih
  | @adopt log g _ settings ih => exact sortByPriority_sorted settings _

/-- An admission of the log was made in a registry that the run passed through, and the ledger has
only grown since. -/
theorem of_mem_log (h : Run start log g) {a : Admission} (ha : a ∈ log) :
    a.registry.knows a.engine.id = false ∧ (∃ earlier, Run start earlier a.registry) ∧
      ∃ xs, a.verified.ledger.Grows xs g.ledger := by
  induction h with
  | refl => cases ha
  | @enroll log g hRun env e hNew ih =>
    rcases List.mem_append.mp ha with ha | ha
    · obtain ⟨hUnknown, hEarlier, xs, hGrows⟩ := ih ha
      exact ⟨hUnknown, hEarlier, _, hGrows.trans (Admission.mk g env e).grows⟩
    · rw [List.mem_singleton.mp ha]
      exact ⟨hNew, ⟨log, hRun⟩, [], .refl⟩
  | change _ p hStanding ih => exact ih ha
  | adopt _ settings ih => exact ih ha

end Run

/-! ## Identifiers -/

def Apart (a b : EngineId) : Prop := a.same b = false

theorem Apart.symm {a b : EngineId} (h : Apart a b) : Apart b a := by
  rw [Apart, EngineId.same_comm]
  exact h

def Distinct (g : Registry) : Prop := g.order.Pairwise Apart

theorem Run.distinct {start g : Registry} {log : List Admission} (h : Run start log g)
    (hStart : start.Distinct) : g.Distinct := by
  induction h with
  | refl => exact hStart
  | @enroll log g _ env e hNew ih =>
    have hPerm := (sortByPriority_perm g.settings
      (g.engines ++ [(⟨g, env, e⟩ : Admission).verified.engine])).map (·.id)
    refine hPerm.symm.pairwise ?_ Apart.symm
    rw [List.map_append, List.map_singleton, Admission.id_verified]
    refine List.pairwise_append.mpr ⟨ih, List.pairwise_singleton _ _, ?_⟩
    intro x hx y hy
    obtain ⟨k, hk, rfl⟩ := List.mem_map.mp hx
    rw [List.mem_singleton.mp hy]
    exact knows_eq_false_iff.mp hNew k hk
  | @change log g _ p f hStanding ih =>
    rw [Distinct, order_change p hStanding]
    exact ih
  | @adopt log g _ settings ih =>
    have hPerm := (sortByPriority_perm settings g.engines).map (·.id)
    exact hPerm.symm.pairwise ih Apart.symm

theorem Run.order_perm {start g : Registry} {log : List Admission} (h : Run start log g) :
    g.order.Perm (start.order ++ log.map (·.engine.id)) := by
  have hPerm := h.standing_perm.map (·.id)
  rw [List.map_append, List.map_map, List.map_map, List.map_map] at hPerm
  have hIds : log.map (·.engine.id) = log.map ((·.id) ∘ (·.verified.engine.standing)) :=
    List.map_congr_left fun a _ => a.id_verified.symm
  rw [hIds]
  exact hPerm

theorem Run.eq_of_same {start g : Registry} {log : List Admission} (h : Run start log g)
    (hStart : start.engines = []) {a b : Admission} (ha : a ∈ log) (hb : b ∈ log)
    (hSame : b.engine.id.same a.engine.id = true) : b = a := by
  have hOrder : start.order = [] := by rw [order, hStart, List.map_nil]
  have hDistinct : g.Distinct := h.distinct (by rw [Distinct, hOrder]; exact List.Pairwise.nil)
  have hPerm := h.order_perm
  rw [hOrder, List.nil_append] at hPerm
  have hLog := List.pairwise_map.mp (hPerm.pairwise hDistinct Apart.symm)
  have : Std.Symm fun a b : Admission => Apart a.engine.id b.engine.id := ⟨fun _ _ => Apart.symm⟩
  by_contra hne
  -- Two places in the log would make two places in the list.
  have hApart : b.engine.id.same a.engine.id = false := hLog.forall hb ha hne
  rw [hSame] at hApart
  cases hApart

theorem Run.eq_of_same_of_declaration {start g : Registry} {log : List Admission}
    (h : Run start log g) (hStart : start.engines = []) {a : Admission} {e : Engine} (ha : a ∈ log)
    (hDeclaration : a.engine.declaration = e.declaration) :
    ∀ b ∈ log, b.engine.id.same e.id = true → b = a := by
  intro b hb hSame
  rw [← Engine.id_eq_of_declaration hDeclaration] at hSame
  exact h.eq_of_same hStart ha hb hSame

/-! ## An engine and its surroundings -/

/-- An engine without a bundled executable, with one on the search path and one of the user's. -/
def halfInstalled : Engine :=
  (((Engine.new ⟨"FFmpegVideo"⟩ "FFmpeg" .ffmpeg .videoFile).withExecutable .bundled none
    ).withExecutable .installed (some ⟨"ffmpeg"⟩)).withExecutable .custom (some ⟨"/opt/ffmpeg"⟩)

/-- Every file may be executed, and every call is answered by the same banner. -/
def answering : Environment where
  platform := .linux64
  workingDirectory := .ok ⟨"/"⟩
  access _ _ := .ok ()
  runner _ _ := .ok ⟨0, ["ffmpeg version 7.1 Copyright"], true⟩
  clock _ := ⟨2024, 5, 17, 9, 30, 0⟩

end Registry

end TranscodingEngines
