import Mathlib.Logic.ExistsUnique
import TranscodingEngines.Proofs.Dispatch
import TranscodingEngines.Proofs.Registry.History

/-!
# The states of declared roles

Whatever happened to a registry, each declared role of an engine in its list is in exactly one of
five cases, which the engine's registration decided: it has no path, its engine cannot work on the
platform, its executable could not be reached, it was settled with an executable, or it is unknown
because the registration was interrupted. The engines handed out for resources are enabled and
settled as available on their current role.
-/

set_option autoImplicit false

namespace TranscodingEngines

/-- The cases that a declared role of a registered engine can be in. -/
inductive RoleCase where
  | undefined
  | incompatible
  | unreachable
  | settled
  | unknown
  deriving DecidableEq

namespace RoleCase

/-- The role of the engine, which was registered by the admission, is in the case. -/
def Holds (a : Admission) (e : Engine) (r : Role) : RoleCase → Prop
  | undefined =>
    (∀ p, e.configured r = some p → p.isEmpty = true) ∧
      e.resolved r = none ∧ e.availability r = .unavailable (.notDefined e.name)
  | incompatible =>
    (∃ p, e.configured r = some p ∧ p.isEmpty = false) ∧
      e.requiresAvisynth = true ∧ a.environment.platform.isWindows = false ∧
      e.resolved r = none ∧ e.availability r = .unavailable (.platformIncompatible e.name)
  | unreachable =>
    ((∃ path failure, (e.resolve r a.environment.platform a.environment.workingDirectory).1
          = .ok (.absolute path) ∧
        (∃ x ∈ a.course, x.role = r ∧ a.environment.access x.met.calls path = .error failure) ∧
        e.availability r = .unavailable (failure.reason e.name path)) ∨
      ∃ p cause, e.configured r = some p ∧ p.isEmpty = false ∧
        (p.completed a.environment.platform).locate a.environment.workingDirectory = .error cause ∧
        e.availability r
          = .unavailable (.notFound (p.completed a.environment.platform) e.name)) ∧
      e.resolved r = none
  | settled =>
    ∃ executable, (e.resolve r a.environment.platform a.environment.workingDirectory).1
        = .ok executable ∧
      (∀ path, executable = .absolute path →
        ∃ x ∈ a.course, x.role = r ∧ a.environment.access x.met.calls path = .ok ()) ∧
      e.resolved r = some executable.path ∧
      (e.availability r = .unavailable (.avisynthNotFound e.name) ↔
        a.environment.platform.isWindows = true ∧ e.requiresAvisynth = true ∧
          a.environment.platform.avisynthInstalled = false) ∧
      (e.availability r = .unavailable (.avisynthNotFound e.name) ∨ (e.availability r).FromProbe)
  | unknown =>
    e.availability r = .unknown ∧
      (a.registry.register a.environment a.engine).result = .error (.interrupted e.name) ∧
      ∃ q, a.verified.interruptedAt = some q ∧
        ((q = r ∧ ∃ executable, (e.resolve r a.environment.platform
            a.environment.workingDirectory).1 = .ok executable ∧
            e.resolved r = some executable.path) ∨
          ([q, r].Sublist e.roles ∧ e.resolved r = none))

def ofAvailability : Availability → RoleCase
  | .unknown => unknown
  | .available _ => settled
  | .unavailable (.notDefined _) => undefined
  | .unavailable (.platformIncompatible _) => incompatible
  | .unavailable (.notFound _ _) => unreachable
  | .unavailable (.noExecutePermission _ _) => unreachable
  | .unavailable (.avisynthNotFound _) => settled
  | .unavailable (.launchFailed _) => settled
  | .unavailable (.rejected _) => settled

theorem ofAvailability_fromProbe {a : Availability} (h : a.FromProbe) :
    ofAvailability a = settled := by
  rcases h with ⟨_, rfl⟩ | ⟨_, rfl⟩ | ⟨_, rfl⟩ <;> rfl

theorem Holds.eq_ofAvailability {a : Admission} {e : Engine} {r : Role} {c : RoleCase}
    (h : c.Holds a e r) : c = ofAvailability (e.availability r) := by
  cases c with
  | undefined => rw [h.2.2]; rfl
  | incompatible => rw [h.2.2.2.2]; rfl
  | unreachable =>
    rcases h.1 with ⟨path, failure, _, _, hState⟩ | ⟨p, cause, _, _, _, hState⟩
    · rw [hState]
      cases failure <;> rfl
    · rw [hState]
      rfl
  | settled =>
    obtain ⟨_, _, _, _, _, hState | hState⟩ := h
    · rw [hState]
      rfl
    · exact (ofAvailability_fromProbe hState).symm
  | unknown => rw [h.1]; rfl

variable {a : Admission} {e : Engine} {r : Role}

theorem Holds.settled_of_isAvailable {c : RoleCase} (h : c.Holds a e r)
    (hAvailable : e.isAvailableFor r = true) : settled.Holds a e r := by
  rw [Engine.isAvailableFor] at hAvailable
  have hCase := h.eq_ofAvailability
  cases hState : e.availability r with
  | unknown => rw [hState] at hAvailable; cases hAvailable
  | unavailable reason => rw [hState] at hAvailable; cases hAvailable
  | available version =>
    rw [hState] at hCase
    change c = settled at hCase
    rw [← hCase]
    exact h

theorem settled_of_reaches {x : Examination} {executable : Executable}
    {availability : Availability} (hx : x ∈ a.course)
    (hReach : a.environment.Reaches e x.role x.met executable)
    (hLacks : a.environment.lacksAvisynth e = false)
    (hResolved : e.resolved x.role = some executable.path)
    (hAvailability : e.availability x.role = availability) (hProbe : availability.FromProbe) :
    settled.Holds a e x.role := by
  subst hAvailability
  refine ⟨executable, hReach.resolved, ?_, hResolved, ?_, .inr hProbe⟩
  · intro path hAbsolute
    exact ⟨x, hx, rfl, hReach.accessible path hAbsolute⟩
  · rw [← Environment.lacksAvisynth_iff, hLacks]
    exact iff_of_false (hProbe.ne_avisynthNotFound e.name) Bool.false_ne_true

theorem exists_resolved (h : settled.Holds a e r) : ∃ path, e.resolved r = some path := by
  obtain ⟨executable, _, _, hResolved, _⟩ := h
  exact ⟨executable.path, hResolved⟩

end RoleCase

theorem Engine.declares_of_isAvailableFor {e : Engine} {r : Role}
    (h : e.isAvailableFor r = true) :
    ∃ version, e.availability r = .available version ∧ e.declares r = true := by
  rw [isAvailableFor, availability] at h
  rw [availability, declares]
  cases hState : e.executables.get r with
  | none => rw [hState] at h; cases h
  | some s =>
    rw [hState] at h
    change s.availability.isAvailable = true at h
    cases hAvailability : s.availability with
    | unknown => rw [hAvailability] at h; cases h
    | unavailable reason => rw [hAvailability] at h; cases h
    | available version => exact ⟨version, hAvailability, rfl⟩

theorem Admission.result_of_interruptedAt {a : Admission} {e : Engine} {q : Role}
    (hNew : a.registry.knows a.engine.id = false)
    (hDeclaration : a.engine.declaration = e.declaration) (h : a.verified.interruptedAt = some q) :
    (a.registry.register a.environment a.engine).result = .error (.interrupted e.name) := by
  have hName := Engine.name_eq_of_declaration hDeclaration
  have hResult := (Registry.register_of_new a.environment hNew).1
  have hSome : (Admission.mk a.registry a.environment a.engine).verified.interruptedAt.isSome
      = true := Option.isSome_iff_exists.mpr ⟨q, h⟩
  rw [if_pos hSome, hName] at hResult
  exact hResult

namespace Registry

variable {start g : Registry} {log : List Admission} {a : Admission} {e : Engine} {r : Role}

theorem Run.fromProbe_of_mem_course (h : Run start log g) (hStart : start.ledger = .empty)
    (ha : a ∈ log) {x : Examination} (hx : x ∈ a.course) {p : FilePath} {record : ProbeRecord}
    (hRecord : x.met.cache.get? p = some record) :
    (Availability.ofVerdict record.verdict).FromProbe := by
  obtain ⟨_, ⟨earlier, hEarlier⟩, _⟩ := h.of_mem_log ha
  obtain ⟨_, xs, _, hMet⟩ := Environment.grows_of_mem_course hx
  have hGrows := hEarlier.grows.trans hMet
  rw [hStart] at hGrows
  exact hGrows.fromProbe hRecord

theorem Run.exists_case_of_mem_course (h : Run start log g) (hStart : start.ledger = .empty)
    (ha : a ∈ log) (hStanding : a.verified.engine.standing = e.standing) {x : Examination}
    (hx : x ∈ a.course) : ∃ c : RoleCase, c.Holds a e x.role := by
  have hDeclaration := Admission.declaration_of_standing hStanding
  obtain ⟨hResolved, hAvailability⟩ := Admission.state_of_mem_course hStanding hx
  have hExamined := Admission.examined_of_mem_course hDeclaration hx
  generalize hFinding : x.finding = finding, x.left = left at hExamined hResolved hAvailability
  cases hExamined with
  | undefined hPath =>
    exact ⟨.undefined, Engine.usablePath_eq_none_iff.mp hPath, hResolved, hAvailability⟩
  | @incompatible p hPath hNeeds hPlatform =>
    exact ⟨.incompatible, ⟨p, Engine.usablePath_eq_some_iff.mp hPath⟩, hNeeds, hPlatform,
      hResolved, hAvailability⟩
  | @unlocatable p cause hPath _ hLocate =>
    obtain ⟨hConfigured, hFilled⟩ := Engine.usablePath_eq_some_iff.mp hPath
    exact ⟨.unreachable, .inr ⟨p, cause, hConfigured, hFilled, hLocate, hAvailability⟩, hResolved⟩
  | @inaccessible path failure hResolve hAccess =>
    exact ⟨.unreachable, .inl ⟨path, failure, hResolve, ⟨x, hx, rfl, hAccess⟩, hAvailability⟩,
      hResolved⟩
  | @withoutAvisynth executable hReach hLacks =>
    refine ⟨.settled, executable, hReach.resolved, ?_, hResolved, ?_, .inl hAvailability⟩
    · intro path hAbsolute
      exact ⟨x, hx, rfl, hReach.accessible path hAbsolute⟩
    · exact iff_of_true hAvailability (Environment.lacksAvisynth_iff.mp hLacks)
  | onRecord hReach hLacks hRecord =>
    exact ⟨.settled, RoleCase.settled_of_reaches hx hReach hLacks hResolved hAvailability
      (h.fromProbe_of_mem_course hStart ha hx hRecord)⟩
  | unprobeable hReach hLacks _ _ =>
    exact ⟨.settled, RoleCase.settled_of_reaches hx hReach hLacks hResolved hAvailability
      (.inl ⟨none, rfl⟩)⟩
  | judged hReach hLacks _ _ hJudge =>
    exact ⟨.settled, RoleCase.settled_of_reaches hx hReach hLacks hResolved hAvailability
      (Descriptor.fromProbe_of_judge hJudge)⟩
  | @interrupted executable d hReach _ _ _ _ =>
    have hStop : x.finding.isInterrupted = true := by rw [hFinding]; rfl
    have hAt := Admission.interruptedAt_of_mem_course hx hStop
    refine ⟨.unknown, hAvailability, ?_, x.role, hAt, .inl ⟨rfl, executable, hReach.resolved,
      hResolved⟩⟩
    exact Admission.result_of_interruptedAt (h.of_mem_log ha).1 hDeclaration hAt

theorem Run.exists_case (h : Run start log g) (hStart : start.ledger = .empty) (ha : a ∈ log)
    (hStanding : a.verified.engine.standing = e.standing) (hDeclared : e.declares r = true) :
    ∃ c : RoleCase, c.Holds a e r := by
  have hDeclaration := Admission.declaration_of_standing hStanding
  by_cases hRole : r ∈ a.course.map (·.role)
  · obtain ⟨x, hx, rfl⟩ := List.mem_map.mp hRole
    exact h.exists_case_of_mem_course hStart ha hStanding hx
  · -- A role that was not reached stands behind an interrupted one.
    obtain ⟨hResolved, hAvailability⟩ :=
      Admission.state_of_not_mem_course hStanding hDeclared hRole
    have hRoles := Engine.roles_eq_of_declaration hDeclaration
    have hMem : r ∈ a.engine.roles := hRoles ▸ Engine.mem_roles.mpr hDeclared
    obtain ⟨x, hx, hStop, hBehind⟩ := Environment.exists_interrupted_of_not_mem hMem hRole
    have hAt := Admission.interruptedAt_of_mem_course hx hStop
    rw [hRoles] at hBehind
    exact ⟨.unknown, hAvailability,
      Admission.result_of_interruptedAt (h.of_mem_log ha).1 hDeclaration hAt, x.role, hAt,
      .inr ⟨hBehind, hResolved⟩⟩

/-- The engine is among the active ones or among those found for a resource. -/
def HandsOut (g : Registry) (e : Engine) : Prop :=
  e ∈ g.activeEngines ∨
    ∃ resource, e ∈ (g.engineFor resource).found ∨ e ∈ (g.enginesFor resource).found

theorem mem_activeEngines_of_handsOut (h : g.HandsOut e) : e ∈ g.activeEngines := by
  rcases h with hActive | ⟨resource, hFirst | hAll⟩
  · exact hActive
  · exact mem_activeEngines_of_enginesFor (mem_enginesFor_of_engineFor hFirst)
  · exact mem_activeEngines_of_enginesFor hAll

/-- After any history each engine of the list was admitted once, each of its declared roles is in
exactly one case, and an engine that is handed out is enabled, with a current role that is declared,
settled and available. -/
theorem roleCases_applyAll (settings : Settings) (history : List (Environment × Operation)) :
    (∀ e ∈ ((empty settings).applyAll history).engines,
      ∃ a ∈ (empty settings).log history, a.engine.declaration = e.declaration ∧
        (∀ b ∈ (empty settings).log history, b.engine.id.same e.id = true → b = a) ∧
        ∀ r, e.declares r = true → ∃! c : RoleCase, c.Holds a e r) ∧
    ∀ e, ((empty settings).applyAll history).HandsOut e →
      e ∈ ((empty settings).applyAll history).engines ∧ e.enabled = true ∧
      e.declares e.currentRole = true ∧
      (∃ version executable, e.availability e.currentRole = .available version ∧
        e.executable = some executable) ∧
      ∃ a ∈ (empty settings).log history, a.engine.declaration = e.declaration ∧
        RoleCase.settled.Holds a e e.currentRole := by
  have hRun := (empty settings).run_applyAll history
  constructor
  · intro e he
    obtain ⟨a, ha, hStanding⟩ := hRun.exists_admission rfl he
    have hDeclaration := Admission.declaration_of_standing hStanding
    refine ⟨a, ha, hDeclaration, hRun.eq_of_same_of_declaration rfl ha hDeclaration, ?_⟩
    intro r hDeclared
    obtain ⟨c, hCase⟩ := hRun.exists_case rfl ha hStanding hDeclared
    refine ⟨c, hCase, ?_⟩
    intro d hOther
    rw [RoleCase.Holds.eq_ofAvailability hOther, hCase.eq_ofAvailability]
  · intro e hHanded
    obtain ⟨he, hEnabled, hAvailable⟩ :=
      mem_activeEngines.mp (mem_activeEngines_of_handsOut hHanded)
    obtain ⟨a, ha, hStanding⟩ := hRun.exists_admission rfl he
    obtain ⟨version, hVersion, hDeclared⟩ := Engine.declares_of_isAvailableFor hAvailable
    obtain ⟨c, hCase⟩ := hRun.exists_case rfl ha hStanding hDeclared
    have hSettled := hCase.settled_of_isAvailable hAvailable
    obtain ⟨path, hPath⟩ := RoleCase.exists_resolved hSettled
    exact ⟨he, hEnabled, hDeclared, ⟨version, path, hVersion, hPath⟩, a, ha,
      Admission.declaration_of_standing hStanding, hSettled⟩

/-- The half-installed engine is handed out with its installed executable. -/
theorem roleCases_halfInstalled :
    let history := [(answering, Operation.register halfInstalled)]
    ∃ e ∈ ((empty .none).applyAll history).engines,
      ((empty .none).applyAll history).HandsOut e ∧ e.currentRole = .installed ∧
      (∃ a ∈ (empty .none).log history, a.engine.declaration = e.declaration ∧
        RoleCase.settled.Holds a e .installed) ∧
      ∃ a ∈ (empty .none).log history, a.engine.declaration = e.declaration ∧
        ∃! c : RoleCase, c.Holds a e .bundled := by
  intro history
  have hSome : ∃ e ∈ ((empty .none).applyAll history).activeEngines,
      e.currentRole = .installed ∧ e.declares .bundled = true := by decide +kernel
  obtain ⟨e, hActive, hRole, hDeclared⟩ := hSome
  have hEngine := (mem_activeEngines.mp hActive).1
  obtain ⟨hStates, hHanded⟩ := roleCases_applyAll .none history
  obtain ⟨a, ha, hDeclaration, _, hCases⟩ := hStates e hEngine
  obtain ⟨_, _, _, _, hSettled⟩ := hHanded e (.inl hActive)
  rw [hRole] at hSettled
  exact ⟨e, hEngine, .inl hActive, hRole, hSettled, a, ha, hDeclaration, hCases _ hDeclared⟩

end Registry

end TranscodingEngines
