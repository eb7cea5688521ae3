import Mathlib.Data.List.Induction
import TranscodingEngines.Proofs.Registry.Probes
import TranscodingEngines.Proofs.Registry.Updates
import TranscodingEngines.Proofs.Verification.Steady

/-!
# Engines registered one after the other

In a steady environment, and if engines that share an executable are of one family, registering
engines with distinct identifiers one after the other makes of each what a probe of its own would
make of it, but for the engine that the text of a failed probe names. Each executable that some
engine comes to probe is called once and is on record.
-/

set_option autoImplicit false

namespace TranscodingEngines

/-! ## Engines -/

namespace Engine

theorem bestRole_congr {e e' : Engine} (h : e.declaration = e'.declaration)
    (hAvailable : ∀ r, e.isAvailableFor r = e'.isAvailableFor r) (preferred : Option Role) :
    e.bestRole preferred = e'.bestRole preferred := by
  have hSame : e.isAvailableFor = e'.isAvailableFor := funext hAvailable
  simp only [bestRole, hSame, defaultRole_eq_of_declaration h, roles_eq_of_declaration h]

/-- The two engines are the same, but for the engines that the texts of failed probes name. -/
structure Alike (names : List String) (k k' : Engine) : Prop where
  declaration : k.declaration = k'.declaration
  enabled : k.enabled = k'.enabled
  currentRole : k.currentRole = k'.currentRole
  resolved : ∀ r, k.resolved r = k'.resolved r
  availability : ∀ r, (k.availability r).Alike names (k'.availability r)

theorem state_of_not_declares {e : Engine} {r : Role} (h : e.declares r = false) :
    e.resolved r = none ∧ e.availability r = .unknown := by
  rw [declares, Option.isSome_eq_false_iff, Option.isNone_iff_eq_none] at h
  rw [resolved, availability, h]
  exact ⟨rfl, rfl⟩

/-- The engine is what registration makes of a declared one in a steady environment, where each
failed probe was made for an engine of the list. -/
structure Enrolled (k : Engine) (env : Environment) (settings : Settings) (names : List String)
    (e : Engine) : Prop where
  declaration : k.declaration = e.declaration
  enabled : k.enabled = settings.isEnabled e.id
  state : ∀ r, e.declares r = true → ∃ n ∈ names,
    k.resolved r = (env.outlook e r n).executable? ∧
      k.availability r = (env.outlook e r n).availability
  currentRole : k.currentRole = k.bestRole (settings.preferredRole e.id)

theorem Enrolled.alike {env : Environment} {settings : Settings} {names : List String}
    {e k k' : Engine} (h : k.Enrolled env settings names e)
    (h' : k'.Enrolled env settings names e) : k.Alike names k' := by
  have hDeclaration : k.declaration = k'.declaration := h.declaration.trans h'.declaration.symm
  have hState : ∀ r, k.resolved r = k'.resolved r ∧
      (k.availability r).Alike names (k'.availability r) := by
    intro r
    cases hDeclared : e.declares r with
    | true =>
      obtain ⟨n, hn, hResolved, hAvailability⟩ := h.state r hDeclared
      obtain ⟨m, hm, hResolved', hAvailability'⟩ := h'.state r hDeclared
      rw [hResolved, hResolved', hAvailability, hAvailability', env.executable?_outlook,
        env.executable?_outlook]
      exact ⟨rfl, Environment.outlook_alike hn hm⟩
    | false =>
      have hFirst := hDeclared
      rw [← declares_eq_of_declaration h.declaration] at hFirst
      rw [← declares_eq_of_declaration h'.declaration] at hDeclared
      obtain ⟨hResolved, hAvailability⟩ := state_of_not_declares hFirst
      obtain ⟨hResolved', hAvailability'⟩ := state_of_not_declares hDeclared
      rw [hResolved, hResolved', hAvailability, hAvailability']
      exact ⟨rfl, .refl _⟩
  refine ⟨hDeclaration, h.enabled.trans h'.enabled.symm, ?_, fun r => (hState r).1,
    fun r => (hState r).2⟩
  rw [h.currentRole, h'.currentRole]
  exact bestRole_congr hDeclaration (fun r => (hState r).2.isAvailable_eq) _

end Engine

namespace Registry

variable {env : Environment} {settings : Settings} {engines : List Engine}
  {log : List Admission} {g : Registry} {a : Admission}

def registrations (env : Environment) (engines : List Engine) :
    List (Environment × Operation) :=
  engines.map fun e => (env, .register e)

/-- The log admits the engines, in their order, to a registry that had none. -/
structure Enrolls (env : Environment) (settings : Settings) (engines : List Engine)
    (log : List Admission) (g : Registry) : Prop where
  run : Run (empty settings) log g
  engines_eq : log.map (·.engine) = engines
  environment_eq : ∀ a ∈ log, a.environment = env
  settings_eq : ∀ a ∈ log, a.registry.settings = settings
  inForce : g.settings = settings
  listed : g.engines.Perm (log.map (·.verified.engine))

theorem exists_enrolls (env : Environment) (settings : Settings)
    (hApart : engines.Pairwise fun a b => a.id.same b.id = false) :
    ∃ log, Enrolls env settings engines log
      ((empty settings).applyAll (registrations env engines)) := by
  induction engines using List.reverseRecOn with
  | nil => exact ⟨[], .refl, rfl, by simp, by simp, rfl, .nil⟩
  | append_singleton engines e ih =>
    obtain ⟨hEngines, _, hLast⟩ := List.pairwise_append.mp hApart
    obtain ⟨log, hLog⟩ := ih hEngines
    have hHistory : registrations env (engines ++ [e])
        = registrations env engines ++ [(env, .register e)] := List.map_append
    rw [hHistory, applyAll_append]
    generalize (empty settings).applyAll (registrations env engines) = g at hLog ⊢
    have hNew : g.knows e.id = false := by
      rw [knows_eq_false_iff]
      intro k hk
      obtain ⟨a, ha, rfl⟩ := List.mem_map.mp (hLog.listed.mem_iff.mp hk)
      rw [a.id_verified]
      refine hLast a.engine ?_ e List.mem_cons_self
      rw [← hLog.engines_eq]
      exact List.mem_map_of_mem ha
    have hRegistry : g.applyAll [(env, .register e)] = (⟨g, env, e⟩ : Admission).after :=
      (register_of_new env hNew).2
    have hPerm := g.engines_register_perm env e
    rw [admission?, if_neg (ne_true_of_eq_false hNew), (register_of_new env hNew).2] at hPerm
    rw [hRegistry]
    refine ⟨log ++ [⟨g, env, e⟩], hLog.run.enroll env e hNew, ?_, ?_, ?_, hLog.inForce, ?_⟩
    · rw [List.map_append, hLog.engines_eq, List.map_singleton]
    · intro a ha
      rcases List.mem_append.mp ha with ha | ha
      · exact hLog.environment_eq a ha
      · rw [List.mem_singleton.mp ha]
    · intro a ha
      rcases List.mem_append.mp ha with ha | ha
      · exact hLog.settings_eq a ha
      · rw [List.mem_singleton.mp ha]
        exact hLog.inForce
    · rw [List.map_append]
      exact hPerm.trans (hLog.listed.append_right _)

/-- Engines of the list that come to the same executable are of one family. -/
def Harmonious (env : Environment) (engines : List Engine) : Prop :=
  ∀ e ∈ engines, ∀ k ∈ engines, ∀ r s x y, env.reached e r = .ok x → env.reached k s = .ok y →
    x.path.same y.path = true → e.family = k.family

namespace Enrolls

variable (h : Enrolls env settings engines log g) (hSteady : env.Steady)

include h

theorem engine_mem (ha : a ∈ log) : a.engine ∈ engines := by
  rw [← h.engines_eq]
  exact List.mem_map_of_mem ha

theorem exists_admission {e : Engine} (he : e ∈ engines) : ∃ a ∈ log, a.engine = e := by
  rw [← h.engines_eq] at he
  exact List.mem_map.mp he

include hSteady

theorem concludes (ha : a ∈ log) {x : Examination} (hx : x ∈ a.course) :
    Environment.Concludes env a.engine x.role x.met x.finding x.left := by
  have hExamined := Admission.examined_of_mem_course (a := a) rfl hx
  rw [h.environment_eq a ha] at hExamined
  exact hExamined.concludes hSteady

/-- No role is left out, because nothing is interrupted. -/
theorem exists_examination (ha : a ∈ log) {r : Role} (hDeclared : a.engine.declares r = true) :
    ∃ x ∈ a.course, x.role = r := by
  by_contra hNone
  have hRole : r ∉ a.course.map (·.role) := fun hMem => hNone (List.mem_map.mp hMem)
  obtain ⟨x, hx, hStop, _⟩ :=
    Environment.exists_interrupted_of_not_mem (Engine.mem_roles.mpr hDeclared) hRole
  rw [(h.concludes hSteady ha hx).isInterrupted_eq_false] at hStop
  cases hStop

theorem resolved_eq (ha : a ∈ log) {r : Role} {executable : Executable}
    (hReached : env.reached a.engine r = .ok executable) :
    a.verified.engine.resolved r = some executable.path := by
  obtain ⟨x, hx, rfl⟩ :=
    h.exists_examination hSteady ha (Environment.declares_of_reached hReached)
  rw [(Admission.state_of_mem_course rfl hx).1, (h.concludes hSteady ha hx).executable?_eq,
    hReached]
  rfl

theorem harmonious (hFamilies : ∀ e ∈ g.engines, ∀ k ∈ g.engines, ∀ r s p q,
    e.resolved r = some p → k.resolved s = some q → p.same q = true → e.family = k.family) :
    Harmonious env engines := by
  intro e he k hk r s x y hx hy hSame
  obtain ⟨a, ha, rfl⟩ := h.exists_admission he
  obtain ⟨b, hb, rfl⟩ := h.exists_admission hk
  rw [← Engine.family_eq_of_declaration a.declaration_verified,
    ← Engine.family_eq_of_declaration b.declaration_verified]
  exact hFamilies _ (h.listed.mem_iff.mpr (List.mem_map_of_mem ha)) _
    (h.listed.mem_iff.mpr (List.mem_map_of_mem hb)) r s x.path y.path
    (h.resolved_eq hSteady ha hx) (h.resolved_eq hSteady hb hy) hSame

/-! ### Records -/

theorem probes_of_mem_exchanges {x : Exchange} (hx : x ∈ log.flatMap Admission.exchanges) :
    ∃ e ∈ engines, ∃ r p d met, env.Probes e r p d ∧ x = env.exchange e met ⟨p, d.args⟩ := by
  obtain ⟨a, ha, hx⟩ := List.mem_flatMap.mp hx
  obtain ⟨y, hy, hx⟩ := List.mem_flatMap.mp hx
  rw [h.environment_eq a ha] at hx
  obtain ⟨p, d, hExchange, hProbes⟩ := (h.concludes hSteady ha hy).probes hx
  exact ⟨a.engine, h.engine_mem ha, y.role, p, d, y.met, hProbes, hExchange⟩

theorem judge_of_record {p : FilePath} {record : ProbeRecord}
    (hRecord : g.ledger.cache.get? p = some record) : ∃ e ∈ engines, ∃ r q d,
      env.Probes e r q d ∧ q.same p = true ∧ record.executable = q ∧
      d.judge e.name env.platform (env.runner [] ⟨p, d.args⟩) = some record.verdict := by
  obtain ⟨x, hx, hPath, hKept⟩ := (h.run.grows.get?_eq_some_iff rfl).mp hRecord
  obtain ⟨e, he, r, q, d, met, hProbes, rfl⟩ := h.probes_of_mem_exchanges hSteady hx
  obtain ⟨verdict, hVerdict, rfl⟩ := Option.map_eq_some_iff.mp hKept
  change q.same p = true at hPath
  rw [env.verdict?_exchange met _ hProbes.family, hSteady.runner _ [] _ p _ hPath] at hVerdict
  exact ⟨e, he, r, q, d, hProbes, hPath, rfl, hVerdict⟩

theorem exists_record {e : Engine} (he : e ∈ engines) {r : Role} {p : FilePath} {d : Descriptor}
    (hProbes : env.Probes e r p d) : ∃ record, g.ledger.cache.get? p = some record := by
  obtain ⟨a, ha, rfl⟩ := h.exists_admission he
  obtain ⟨executable, hReached, _⟩ := hProbes.reached
  obtain ⟨x, hx, rfl⟩ :=
    h.exists_examination hSteady ha (Environment.declares_of_reached hReached)
  obtain ⟨record, hRecord⟩ := (h.concludes hSteady ha hx).exists_record hProbes
  exact ⟨record, h.run.get?_of_mem_course ha hx hRecord⟩

/-! ### Engines -/

theorem exists_outlook {names : List String} (hNames : ∀ e ∈ engines, e.name ∈ names)
    (hHarmonious : Harmonious env engines) (ha : a ∈ log) {x : Examination} (hx : x ∈ a.course) :
    ∃ n ∈ names, x.finding = env.outlook a.engine x.role n := by
  refine (h.concludes hSteady ha hx).exists_outlook (hNames _ (h.engine_mem ha)) ?_
  intro executable record hReached hRecord
  -- What the role meets on record was probed for an engine of the list, of the same family.
  have hGrows := (Admission.examined_of_mem_course (a := a) rfl hx).grows
  have hLater := h.run.get?_of_mem_course ha hx (hGrows.get?_mono hRecord)
  obtain ⟨e, he, s, q, d, hProbes, hSame, _, hJudge⟩ := h.judge_of_record hSteady hLater
  obtain ⟨other, hOther, rfl⟩ := hProbes.reached
  have hFamily := hHarmonious e he a.engine (h.engine_mem ha) s x.role other executable hOther
    hReached hSame
  exact ⟨e.name, hNames e he, d, hFamily ▸ hProbes.family, hJudge⟩

theorem enrolled {names : List String} (hNames : ∀ e ∈ engines, e.name ∈ names)
    (hHarmonious : Harmonious env engines) (ha : a ∈ log) :
    a.verified.engine.Enrolled env settings names a.engine where
  declaration := a.declaration_verified
  enabled := by rw [a.enabled_verified, h.settings_eq a ha]
  state := by
    intro r hDeclared
    obtain ⟨x, hx, rfl⟩ := h.exists_examination hSteady ha hDeclared
    obtain ⟨n, hn, hFinding⟩ := h.exists_outlook hSteady hNames hHarmonious ha hx
    refine ⟨n, hn, ?_⟩
    rw [← hFinding]
    exact Admission.state_of_mem_course rfl hx
  currentRole := by
    have hAt : a.verified.interruptedAt = none := by
      rw [a.interruptedAt_verified, Option.map_eq_none_iff, List.find?_eq_none]
      intro x hx
      rw [(h.concludes hSteady ha hx).isInterrupted_eq_false]
      exact Bool.false_ne_true
    have hRole := congrArg Engine.currentRole a.engine_verified
    rw [hAt, h.settings_eq a ha] at hRole
    rw [hRole, a.engine_verified]
    rfl

/-! ### Calls -/

/-- An executable is called if and only if an engine comes to its probe. -/
theorem mem_called_iff {c : List FilePath.Component} :
    c ∈ (log.flatMap Admission.exchanges).map (·.call.program.components) ↔
      ∃ e ∈ engines, ∃ r p d, env.Probes e r p d ∧ p.components = c := by
  constructor
  · intro hc
    obtain ⟨x, hx, rfl⟩ := List.mem_map.mp hc
    obtain ⟨e, he, r, p, d, met, hProbes, rfl⟩ := h.probes_of_mem_exchanges hSteady hx
    exact ⟨e, he, r, p, d, hProbes, rfl⟩
  · rintro ⟨e, he, r, p, d, hProbes, rfl⟩
    obtain ⟨record, hRecord⟩ := h.exists_record hSteady he hProbes
    obtain ⟨x, hx, hPath, _⟩ := (h.run.grows.get?_eq_some_iff rfl).mp hRecord
    exact List.mem_map.mpr ⟨x, hx, FilePath.same_iff.mp hPath⟩

theorem called_nodup :
    ((log.flatMap Admission.exchanges).map (·.call.program.components)).Nodup := by
  rw [List.Nodup, List.pairwise_map]
  refine h.run.grows.pairwise_verdict?.imp_of_mem ?_
  intro x y hx _ hOnce hSame
  obtain ⟨e, _, r, p, d, met, hProbes, rfl⟩ := h.probes_of_mem_exchanges hSteady hx
  have hVerdict := hOnce (FilePath.same_iff.mpr hSame)
  rw [env.verdict?_exchange met _ hProbes.family, Descriptor.judge_eq_none_iff] at hVerdict
  exact hSteady.answered _ _ hVerdict

omit hSteady in
theorem length_calls : g.ledger.calls.length
    = ((log.flatMap Admission.exchanges).map (·.call.program.components)).length := by
  rw [h.run.grows.calls_eq, List.length_append, List.length_map, List.length_map]
  exact Nat.zero_add _

end Enrolls

/-! ## The list -/

/-- The list holds one engine of the identifier: the one that the registration made. -/
theorem Enrolls.filter_same (h : Enrolls env settings engines log g) (ha : a ∈ log) :
    g.engines.filter (·.id.same a.engine.id) = [a.verified.engine] := by
  have hDistinct := h.run.distinct List.Pairwise.nil
  have hLists := hDistinct.lists (h.listed.mem_iff.mpr (List.mem_map_of_mem ha))
  rw [Lists, a.id_verified] at hLists
  exact hLists

theorem Enrolls.order_perm (h : Enrolls env settings engines log g) :
    g.order.Perm (engines.map (·.id)) := by
  have hPerm := h.run.order_perm
  rw [← h.engines_eq, List.map_map]
  exact hPerm

theorem Enrolls.sorted (h : Enrolls env settings engines log g) :
    g.order.Pairwise fun x y => settings.rankOfId x ≤ settings.rankOfId y := by
  have hSorted := sorted_iff.mp (h.run.sorted List.Pairwise.nil)
  rw [h.inForce] at hSorted
  exact hSorted

end Registry

end TranscodingEngines
