import Mathlib.Data.List.Induction
import TranscodingEngines.Proofs.Registry.Addressing

/-!
# What becomes of a registered engine

An engine that is listed stays listed, once. Over a history nothing changes about it but whether it
is enabled and which role is its current one, and these two are what the last successful change that
addressed it set them to. Before such a change they are what registration left, where an engine is
enabled as the settings in force say.
-/

set_option autoImplicit false

namespace TranscodingEngines

/-- The engine with the flag and the current role that are given, if they are. -/
def Engine.adjusted (e : Engine) (enabled : Option Bool) (role : Option Role) : Engine :=
  { e with enabled := enabled.getD e.enabled, currentRole := role.getD e.currentRole }

@[simp]
theorem Engine.id_adjusted (e : Engine) (enabled : Option Bool) (role : Option Role) :
    (e.adjusted enabled role).id = e.id := rfl

theorem Engine.adjusted_adjusted (e : Engine) (enabled enabled' : Option Bool)
    (role role' : Option Role) : (e.adjusted enabled role).adjusted enabled' role'
      = e.adjusted (enabled'.or enabled) (role'.or role) := by
  cases enabled' <;> cases role' <;> rfl

namespace Registry

variable {g m : Registry} {k : Engine}

/-- The engine with the identifier, if the outcome is a success and the raw text leads to it. -/
def addressed (id : EngineId) (g : Registry) (raw : String) (outcome : Outcome) : Option Engine :=
  match outcome.result with
  | .ok () => (g.lookup raw).filter (·.id.same id)
  | .error _ => none

/-- The value that a successful operation gives to the flag of the engine with the identifier. -/
def enabling (id : EngineId) (g : Registry) : Operation → Option Bool
  | .setEnabled raw enabled =>
    (addressed id g raw (g.setEnabled raw enabled)).map fun _ => enabled
  | _ => none

/-- The declared role that a successful operation selects for the engine with the identifier. -/
def selection (id : EngineId) (g : Registry) : Operation → Option Role
  | .selectRole raw r =>
    ((addressed id g raw (g.selectRole raw r)).filter (·.declares r)).map fun _ => r
  | _ => none

/-- The last value that the operations of a history yield in the registries that they meet. -/
def lastOf {α : Type} (yield : Registry → Operation → Option α) (g : Registry) :
    List (Environment × Operation) → Option α
  | [] => none
  | (env, operation) :: rest =>
    ((g.apply env operation).registry.lastOf yield rest).or (yield g operation)

/-! ## One operation -/

/-- The engine is in the list, and no other has its identifier. -/
def Lists (g : Registry) (k : Engine) : Prop := g.engines.filter (·.id.same k.id) = [k]

theorem Lists.mem (h : g.Lists k) : k ∈ g.engines := by
  have hMem : k ∈ g.engines.filter (·.id.same k.id) := by
    rw [h]
    exact List.mem_cons_self
  exact (List.mem_filter.mp hMem).1

theorem Lists.eq_of_same (h : g.Lists k) {e : Engine} (he : e ∈ g.engines)
    (hSame : e.id.same k.id = true) : e = k := by
  have hMem : e ∈ g.engines.filter (·.id.same k.id) := List.mem_filter.mpr ⟨he, hSame⟩
  rw [h] at hMem
  exact List.mem_singleton.mp hMem

theorem Distinct.lists (h : g.Distinct) (hk : k ∈ g.engines) : g.Lists k := by
  have hMost := h.length_filter_le (p := (·.same k.id)) fun a b ha hb =>
    EngineId.same_trans ha (by rwa [EngineId.same_comm])
  have hMem : k ∈ g.engines.filter (·.id.same k.id) :=
    List.mem_filter.mpr ⟨hk, k.id.same_self⟩
  obtain ⟨e, hOne⟩ := List.length_eq_one_iff.mp
    (Nat.le_antisymm hMost (List.length_pos_of_mem hMem))
  rw [hOne, List.mem_singleton] at hMem
  rw [Lists, hOne, hMem]

theorem Lists.of_perm (h : g.Lists k) (hPerm : m.engines.Perm g.engines) : m.Lists k := by
  have hFilter := hPerm.filter (·.id.same k.id)
  rw [h] at hFilter
  exact List.perm_singleton.mp hFilter

theorem Lists.replaces (h : g.Lists k) {e e' : Engine} (hReplaces : g.Replaces e e' m)
    (hId : e'.id = e.id) : m.Lists (if e.id.same k.id then e' else k) := by
  obtain ⟨before, after, hSplit, rfl⟩ := hReplaces
  rw [Lists, hSplit, List.filter_append, List.filter_cons] at h
  cases hSame : e.id.same k.id with
  | false =>
    rw [hSame] at h
    rw [if_neg Bool.false_ne_true, Lists, List.filter_append, List.filter_cons, hId, hSame]
    exact h
  | true =>
    rw [hSame, if_pos rfl, List.append_eq_singleton_iff] at h
    rcases h with ⟨hBefore, hRest⟩ | ⟨_, hRest⟩
    · obtain ⟨rfl, hAfter⟩ := List.cons.inj hRest
      rw [if_pos rfl, Lists, hId, List.filter_append, List.filter_cons, hId, hBefore, hAfter,
        EngineId.same_self]
      rfl
    · cases hRest

theorem engines_register_perm (g : Registry) (env : Environment) (e : Engine) :
    (g.register env e).registry.engines.Perm
      (g.engines ++ (g.admission? env e).map (·.verified.engine)) := by
  cases h : g.knows e.id with
  | true =>
    rw [(register_of_knows env h).2, admission?, if_pos h, List.map_nil, List.append_nil]
  | false =>
    rw [(register_of_new env h).2, admission?, if_neg (ne_true_of_eq_false h)]
    exact sortByPriority_perm g.settings _

theorem Lists.register (h : g.Lists k) (env : Environment) (e : Engine) :
    (g.register env e).registry.Lists k := by
  cases hKnown : g.knows e.id with
  | true =>
    rw [(register_of_knows env hKnown).2]
    exact h
  | false =>
    have hFilter := (g.engines_register_perm env e).filter (·.id.same k.id)
    have hOther : (⟨g, env, e⟩ : Admission).verified.engine.id.same k.id = false := by
      rw [Admission.id_verified, EngineId.same_comm]
      exact knows_eq_false_iff.mp hKnown k h.mem
    rw [admission?, if_neg (ne_true_of_eq_false hKnown), List.filter_append, h, List.map_singleton,
      List.filter_cons_of_neg (by simp [hOther])] at hFilter
    exact List.perm_singleton.mp hFilter

theorem Lists.registerAll (h : g.Lists k) (env : Environment) (engines : List Engine) :
    (g.registerAll env engines).registry.Lists k := by
  induction engines generalizing g with
  | nil => exact h
  | cons e rest ih =>
    have hFirst := h.register env e
    rw [Registry.registerAll]
    cases (g.register env e).result with
    | error cause => exact hFirst
    | ok => exact ih hFirst

/-- A change by identifier leaves the engine as it is, or it addresses the engine and changes it. -/
theorem Lists.modified (h : g.Lists k) {raw : String} {f : Engine → Engine} {outcome : Outcome}
    (hModified : Modified g raw f outcome) (hId : ∀ e, (f e).id = e.id) :
    (addressed k.id g raw outcome = none ∧ outcome.registry.Lists k) ∨
      (addressed k.id g raw outcome = some k ∧ outcome.registry.Lists (f k)) := by
  cases hModified with
  | blank => exact .inl ⟨rfl, h⟩
  | unknown => exact .inl ⟨rfl, h⟩
  | @found e _ _ hFound hResult hReplaces =>
    have hLists := h.replaces hReplaces (hId e)
    rw [addressed, hResult, hFound, Option.filter_some]
    cases hSame : e.id.same k.id with
    | false =>
      rw [hSame, if_neg Bool.false_ne_true] at hLists
      exact .inl ⟨rfl, hLists⟩
    | true =>
      rw [hSame, if_pos rfl, h.eq_of_same (of_lookup_eq_some hFound).1 hSame] at hLists
      rw [h.eq_of_same (of_lookup_eq_some hFound).1 hSame]
      exact .inr ⟨rfl, hLists⟩

theorem Lists.setEnabled (h : g.Lists k) (raw : String) (enabled : Bool) :
    (g.setEnabled raw enabled).registry.Lists
      (k.adjusted (enabling k.id g (.setEnabled raw enabled)) none) := by
  rw [enabling]
  rcases h.modified (g.setEnabled_modified raw enabled) (fun _ => rfl) with
    ⟨hNone, hLists⟩ | ⟨hSome, hLists⟩
  · rw [hNone]
    exact hLists
  · rw [hSome]
    exact hLists

theorem Lists.selectRole (h : g.Lists k) (raw : String) (r : Role) :
    (g.selectRole raw r).registry.Lists
      (k.adjusted none (selection k.id g (.selectRole raw r))) := by
  have hId : ∀ e : Engine, (if e.declares r then { e with currentRole := r } else e).id = e.id := by
    intro e
    split <;> rfl
  rw [selection]
  rcases h.modified (g.selectRole_modified raw r) hId with ⟨hNone, hLists⟩ | ⟨hSome, hLists⟩
  · rw [hNone]
    exact hLists
  · rw [hSome, Option.filter_some]
    cases hDeclared : k.declares r with
    | true =>
      rw [hDeclared] at hLists
      exact hLists
    | false =>
      rw [hDeclared] at hLists
      exact hLists

theorem Lists.apply (h : g.Lists k) (env : Environment) (operation : Operation) :
    (g.apply env operation).registry.Lists
      (k.adjusted (enabling k.id g operation) (selection k.id g operation)) := by
  cases operation with
  | register e => exact h.register env e
  | registerBuiltin tools => exact h.registerAll env _
  | setEnabled raw enabled => exact h.setEnabled raw enabled
  | selectRole raw r => exact h.selectRole raw r
  | sort => exact h.of_perm (sortByPriority_perm g.settings g.engines)
  | updateSettings settings => exact h.of_perm (sortByPriority_perm settings g.engines)

/-! ## Histories -/

theorem Lists.applyAll (h : g.Lists k) (history : List (Environment × Operation)) :
    (g.applyAll history).Lists
      (k.adjusted (g.lastOf (enabling k.id) history) (g.lastOf (selection k.id) history)) := by
  induction history generalizing g k with
  | nil => exact h
  | cons step rest ih =>
    obtain ⟨env, operation⟩ := step
    have hLater := ih (h.apply env operation)
    rw [Engine.adjusted_adjusted, Engine.id_adjusted] at hLater
    exact hLater

theorem lists_applyAll {history : List (Environment × Operation)} {settings : Settings}
    (hk : k ∈ ((empty settings).applyAll history).engines) :
    ((empty settings).applyAll history).Lists k :=
  (((empty settings).run_applyAll history).distinct List.Pairwise.nil).lists hk

theorem settings_register (g : Registry) (env : Environment) (e : Engine) :
    (g.register env e).registry.settings = g.settings := by
  cases h : g.knows e.id with
  | true => rw [(register_of_knows env h).2]
  | false =>
    rw [(register_of_new env h).2]
    rfl

theorem settings_of_mem_admissionsOfAll {a : Admission} {env : Environment}
    {engines : List Engine} (ha : a ∈ g.admissionsOfAll env engines) :
    a.registry.settings = g.settings := by
  induction engines generalizing g with
  | nil => cases ha
  | cons e rest ih =>
    rw [admissionsOfAll] at ha
    rcases List.mem_append.mp ha with ha | ha
    · rw [admission?] at ha
      split at ha
      · cases ha
      · rw [List.mem_singleton.mp ha]
    · split at ha
      · cases ha
      · exact (ih ha).trans (g.settings_register env e)

theorem engines_registerAll_perm (g : Registry) (env : Environment) (engines : List Engine) :
    (g.registerAll env engines).registry.engines.Perm
      (g.engines ++ (g.admissionsOfAll env engines).map (·.verified.engine)) := by
  induction engines generalizing g with
  | nil => rw [admissionsOfAll, List.map_nil, List.append_nil]; rfl
  | cons e rest ih =>
    have hFirst := g.engines_register_perm env e
    rw [admissionsOfAll, Registry.registerAll, List.map_append, ← List.append_assoc]
    cases (g.register env e).result with
    | error cause =>
      rw [List.map_nil, List.append_nil]
      exact hFirst
    | ok => exact (ih _).trans (hFirst.append_right _)

/-! ## Where engines come from -/

theorem id_not_mem_order (hNew : g.knows k.id = false) : k.id ∉ g.order := by
  intro hMem
  obtain ⟨e, he, hId⟩ := List.mem_map.mp hMem
  have hSame := knows_eq_false_iff.mp hNew e he
  rw [hId, EngineId.same_self] at hSame
  cases hSame

theorem exists_admission_of_new {env : Environment} {operation : Operation}
    (hNew : g.knows k.id = false) (hk : k ∈ (g.apply env operation).registry.engines) :
    ∃ a ∈ g.admissions env operation, a.verified.engine = k ∧
      a.registry.settings = g.settings := by
  have hOld : k ∉ g.engines := fun hOld => id_not_mem_order hNew (List.mem_map_of_mem hOld)
  -- An operation without admissions keeps the identifiers.
  have hAdmits : g.admissions env operation ≠ [] := by
    intro hNone
    have hPerm := (g.run_apply env operation).order_perm
    rw [hNone, List.map_nil, List.append_nil] at hPerm
    exact id_not_mem_order hNew (hPerm.mem_iff.mp (List.mem_map_of_mem hk))
  cases operation with
  | register e =>
    have hMem := (g.engines_register_perm env e).mem_iff.mp hk
    obtain ⟨a, ha, hAdmitted⟩ := List.mem_map.mp ((List.mem_append.mp hMem).resolve_left hOld)
    refine ⟨a, ha, hAdmitted, ?_⟩
    rw [admission?] at ha
    split at ha
    · cases ha
    · rw [List.mem_singleton.mp ha]
  | registerBuiltin tools =>
    have hMem := (g.engines_registerAll_perm env _).mem_iff.mp hk
    obtain ⟨a, ha, hAdmitted⟩ := List.mem_map.mp ((List.mem_append.mp hMem).resolve_left hOld)
    exact ⟨a, ha, hAdmitted, settings_of_mem_admissionsOfAll ha⟩
  | setEnabled => exact absurd rfl hAdmits
  | selectRole => exact absurd rfl hAdmits
  | sort => exact absurd rfl hAdmits
  | updateSettings => exact absurd rfl hAdmits

theorem enabled_of_new {env : Environment} {operation : Operation}
    (hNew : g.knows k.id = false) (hk : k ∈ (g.apply env operation).registry.engines) :
    k.enabled = g.settings.isEnabled k.id := by
  obtain ⟨a, _, rfl, hSettings⟩ := exists_admission_of_new hNew hk
  rw [a.enabled_verified, a.id_verified, hSettings]

theorem exists_arrival (settings : Settings) (history : List (Environment × Operation))
    (hk : k ∈ ((empty settings).applyAll history).engines) :
    ∃ before env operation after, history = before ++ (env, operation) :: after ∧
      ((empty settings).applyAll before).knows k.id = false ∧
      ∃ x ∈ (((empty settings).applyAll before).apply env operation).registry.engines,
        x.id = k.id := by
  induction history using List.reverseRecOn generalizing k with
  | nil => cases hk
  | append_singleton history step ih =>
    obtain ⟨env, operation⟩ := step
    cases hKnown : ((empty settings).applyAll history).knows k.id with
    | false =>
      rw [applyAll_append] at hk
      exact ⟨history, env, operation, [], rfl, hKnown, k, hk, rfl⟩
    | true =>
      -- The engine was there before, perhaps in another state.
      obtain ⟨x, hx, hSame⟩ := List.any_eq_true.mp hKnown
      have hLists := (lists_applyAll hx).apply env operation
      rw [applyAll_append] at hk
      have hState := hLists.eq_of_same hk (by rwa [EngineId.same_comm])
      obtain ⟨before, env', operation', after, rfl, hNew, y, hy, hId⟩ := ih hx
      rw [hState]
      exact ⟨before, env', operation', after ++ [(env, operation)], by simp, hNew, y, hy, hId⟩

/-! ## Operations that change nothing -/

theorem result_register (g : Registry) (env : Environment) (e : Engine) :
    (g.register env e).result = .ok () ∨ ∃ name, (g.register env e).result
      = .error (.interrupted name) := by
  cases hKnown : g.knows e.id with
  | true => exact .inl (register_of_knows env hKnown).1
  | false =>
    rw [(register_of_new env hKnown).1]
    split
    · exact .inr ⟨e.name, rfl⟩
    · exact .inl rfl

theorem result_registerAll (g : Registry) (env : Environment) (engines : List Engine) :
    (g.registerAll env engines).result = .ok () ∨ ∃ name, (g.registerAll env engines).result
      = .error (.interrupted name) := by
  induction engines generalizing g with
  | nil => exact .inl rfl
  | cons e rest ih =>
    have hFirst := g.result_register env e
    rw [Registry.registerAll]
    split
    · rename_i cause hResult
      rw [hResult] at hFirst
      exact hFirst
    · exact ih _

theorem Modified.registry_of_error {raw : String} {f : Engine → Engine} {outcome : Outcome}
    {cause : RegistryError} (h : Modified g raw f outcome) (hResult : outcome.result = .error cause) :
    outcome.registry = g := by
  cases h with
  | blank => rfl
  | unknown => rfl
  | found _ _ hOk _ =>
    rw [hOk] at hResult
    cases hResult

/-- An operation that fails, and not because it is interrupted, changes nothing. -/
theorem apply_of_error {env : Environment} {operation : Operation} {cause : RegistryError}
    (hResult : (g.apply env operation).result = .error cause)
    (hCause : ∀ name, cause ≠ .interrupted name) : (g.apply env operation).registry = g := by
  have hRegistration : ∀ {outcome : Outcome},
      (outcome.result = .ok () ∨ ∃ name, outcome.result = .error (.interrupted name)) →
      outcome.result ≠ .error cause := by
    rintro outcome (hOk | ⟨name, hStop⟩) hError
    · rw [hOk] at hError
      cases hError
    · rw [hStop] at hError
      exact hCause name (Except.error.inj hError).symm
  cases operation with
  | register e => exact absurd hResult (hRegistration (g.result_register env e))
  | registerBuiltin tools => exact absurd hResult (hRegistration (g.result_registerAll env _))
  | setEnabled raw enabled => exact (g.setEnabled_modified raw enabled).registry_of_error hResult
  | selectRole raw r => exact (g.selectRole_modified raw r).registry_of_error hResult
  | sort => cases hResult
  | updateSettings => cases hResult

theorem Replaces.eq_self {e : Engine} (h : g.Replaces e e m) : m = g := by
  obtain ⟨before, after, hSplit, rfl⟩ := h
  rw [← hSplit]

/-- Which operations change nothing, and what putting settings in force does not change. -/
structure Keeps (g : Registry) : Prop where
  /-- Nothing is asked of the environment for an engine that is known. -/
  register_known : ∀ env e, g.knows e.id = true →
    (g.register env e).result = .ok () ∧ (g.register env e).registry = g ∧
      ∀ env', g.register env' e = g.register env e
  selectRole_undeclared : ∀ raw r e, Text.isBlank raw = false → g.lookup raw = some e →
    e.declares r = false →
    (g.selectRole raw r).result = .ok () ∧ (g.selectRole raw r).registry = g
  failed : ∀ env operation cause, (g.apply env operation).result = .error cause →
    (cause = .blankEngineId ∨ ∃ raw, cause = .unknownEngine raw) →
    (g.apply env operation).registry = g
  sort : g.sort.engines.Perm g.engines ∧ g.sort.settings = g.settings ∧
    g.sort.ledger = g.ledger
  updateSettings : ∀ settings, (g.updateSettings settings).engines.Perm g.engines ∧
    (g.updateSettings settings).settings = settings ∧
    (g.updateSettings settings).ledger = g.ledger

theorem keeps (g : Registry) : g.Keeps where
  register_known env e hKnown := by
    refine ⟨(register_of_knows env hKnown).1, (register_of_knows env hKnown).2, ?_⟩
    intro env'
    have hAny : g.engines.any (·.id.same e.id) = true := hKnown
    rw [register, if_pos hAny, register, if_pos hAny]
  selectRole_undeclared raw r e hInk hFound hDeclared := by
    have hModified := g.selectRole_modified raw r
    generalize g.selectRole raw r = outcome at hModified ⊢
    cases hModified with
    | blank hBlank =>
      rw [hInk] at hBlank
      cases hBlank
    | unknown _ hNone =>
      rw [hFound] at hNone
      cases hNone
    | found _ hOther hResult hReplaces =>
      obtain rfl := Option.some.inj (hFound.symm.trans hOther)
      rw [if_neg (ne_true_of_eq_false hDeclared)] at hReplaces
      exact ⟨hResult, hReplaces.eq_self⟩
  failed env operation cause hResult hCause := by
    refine apply_of_error hResult ?_
    rintro name rfl
    rcases hCause with h | ⟨raw, h⟩ <;> cases h
  sort := ⟨sortByPriority_perm g.settings g.engines, rfl, rfl⟩
  updateSettings settings := ⟨sortByPriority_perm settings g.engines, rfl, rfl⟩

/-! ## All updates -/

/-- Over any history an engine that an operation put into the list is listed once from then on, as
it was left then, but for the flag and the current role that the last successful changes addressed
to it set; its flag was that of the settings in force. Every listed engine was put there by some
operation. An engine that is known is not registered again, and a role that is not declared, a
blank text and an unknown one change nothing. -/
theorem updates_applyAll (settings : Settings) :
    (∀ (before after : List (Environment × Operation)) (env : Environment)
      (operation : Operation) (k : Engine),
      let old := (empty settings).applyAll before
      let left := (old.apply env operation).registry
      old.knows k.id = false → k ∈ left.engines →
      ((empty settings).applyAll (before ++ (env, operation) :: after)).engines.filter
          (·.id.same k.id)
        = [{ k with
            enabled := (left.lastOf (enabling k.id) after).getD (old.settings.isEnabled k.id)
            currentRole := (left.lastOf (selection k.id) after).getD k.currentRole }]) ∧
    (∀ history, ∀ e ∈ ((empty settings).applyAll history).engines,
      ∃ before env operation after, history = before ++ (env, operation) :: after ∧
        ((empty settings).applyAll before).knows e.id = false ∧
        ∃ k ∈ (((empty settings).applyAll before).apply env operation).registry.engines,
          k.id = e.id) ∧
    ∀ history, ((empty settings).applyAll history).Keeps := by
  refine ⟨?_, fun history e he => exists_arrival settings history he, fun history => keeps _⟩
  intro before after env operation k old left hNew hk
  have hHistory : (empty settings).applyAll (before ++ [(env, operation)]) = left :=
    applyAll_append _ _ _
  have hLeft : left.Lists k := by
    rw [← hHistory] at hk ⊢
    exact lists_applyAll hk
  have hLater := hLeft.applyAll after
  rw [← enabled_of_new hNew hk, applyAll_append, applyAll_cons]
  exact hLater

/-- The half-installed engine is disabled and moved to its custom role under respellings of its
identifier; sorting and a change that no engine answers to leave that alone. -/
theorem updates_halfInstalled :
    let registration := (answering, Operation.register halfInstalled)
    let after := [(answering, Operation.setEnabled "ffmpegvideo" false),
      (answering, .selectRole " FFMPEGVIDEO" .custom), (answering, .sort),
      (answering, .setEnabled "dcraw" true)]
    (empty .none).knows halfInstalled.id = false ∧
      ∃ k ∈ ((empty .none).applyAll [registration]).engines,
        k.enabled = true ∧ k.currentRole = .installed ∧
        ((empty .none).applyAll (registration :: after)).engines.filter (·.id.same k.id)
          = [{ k with enabled := false, currentRole := .custom }] := by
  intro registration after
  have hNew : (empty .none).knows halfInstalled.id = false := rfl
  have hSome : ∃ k ∈ ((empty .none).applyAll [registration]).engines,
      k.id = halfInstalled.id ∧ k.enabled = true ∧ k.currentRole = .installed := by decide +kernel
  obtain ⟨k, hk, hId, hEnabled, hRole⟩ := hSome
  have hFlag : ((empty .none).applyAll [registration]).lastOf (enabling k.id) after
      = some false := by
    rw [hId]
    decide +kernel
  have hSelected : ((empty .none).applyAll [registration]).lastOf (selection k.id) after
      = some .custom := by
    rw [hId]
    decide +kernel
  have hListed := (updates_applyAll .none).1 [] after answering (.register halfInstalled) k
    (by rw [hId]; exact hNew) hk
  change _ = [{ k with
    enabled := (((empty .none).applyAll [registration]).lastOf (enabling k.id) after).getD _
    currentRole := (((empty .none).applyAll [registration]).lastOf (selection k.id) after).getD _ }]
    at hListed
  rw [hFlag, hSelected] at hListed
  exact ⟨hNew, k, hk, hEnabled, hRole, hListed⟩

end Registry

end TranscodingEngines
