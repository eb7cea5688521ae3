import TranscodingEngines.Registry.Basic
import TranscodingEngines.Proofs.Verification.Course

/-!
# What registration makes of an engine

An admission is the registration of an engine that was not known before: the registry as it was, the
environment, and the engine as it was handed in. A role that was examined has the executable and the
availability of its finding; one that was not reached is unknown. The rest of the engine is as it
was declared, but for its current role and for being enabled as the settings say.
-/

set_option autoImplicit false

namespace TranscodingEngines

namespace Engine

theorem mem_roles {e : Engine} {r : Role} : r ∈ e.roles ↔ e.declares r = true := by
  rw [roles, List.mem_filter, and_iff_right]
  cases r <;> decide

theorem roles_nodup (e : Engine) : e.roles.Nodup := by
  have hAll : Role.all.Nodup := by decide
  exact hAll.filter _

theorem get_recordAll_of_not_mem (e : Engine) {xs : List Examination} {r : Role}
    (h : r ∉ xs.map (·.role)) : (e.recordAll xs).executables.get r = e.executables.get r := by
  induction xs generalizing e with
  | nil => rfl
  | cons x xs ih =>
    rw [List.map_cons, List.mem_cons, not_or] at h
    rw [recordAll, List.foldl_cons]
    exact (ih (e.record x.role x.finding) h.2).trans (get_record_of_ne e x.finding h.1)

theorem get_recordAll_of_mem (e : Engine) {xs : List Examination}
    (hNodup : (xs.map (·.role)).Nodup) {x : Examination} (hx : x ∈ xs) :
    (e.recordAll xs).executables.get x.role = (e.executables.get x.role).map x.finding.update := by
  induction xs generalizing e with
  | nil => cases hx
  | cons y xs ih =>
    rw [List.map_cons, List.nodup_cons] at hNodup
    rw [recordAll, List.foldl_cons]
    rcases List.mem_cons.mp hx with rfl | hx
    · exact (get_recordAll_of_not_mem _ hNodup.1).trans (get_record_self e x.role x.finding)
    · have hRole : x.role ≠ y.role :=
        fun h => hNodup.1 (h ▸ List.mem_map_of_mem hx)
      rw [← get_record_of_ne e y.finding hRole]
      exact ih (e.record y.role y.finding) hNodup.2 hx

theorem declaration_recordAll (e : Engine) (xs : List Examination) :
    (e.recordAll xs).declaration = e.declaration := by
  induction xs generalizing e with
  | nil => rfl
  | cons x xs ih => exact (ih (e.record x.role x.finding)).trans (e.declaration_record _ _)

theorem enabled_recordAll (e : Engine) (xs : List Examination) :
    (e.recordAll xs).enabled = e.enabled := by
  induction xs generalizing e with
  | nil => rfl
  | cons x xs ih =>
    refine (ih (e.record x.role x.finding)).trans ?_
    rw [record_eq, modifyRole]

end Engine

/-- The registration of an engine that was not known before. -/
structure Admission where
  registry : Registry
  environment : Environment
  engine : Engine

namespace Admission

/-- The engine as it is handed to verification. -/
def fresh (a : Admission) : Engine :=
  { a.engine.forgetVerification with enabled := a.registry.settings.isEnabled a.engine.id }

/-- The engine, the ledger and the interruption that verification ended with, with the current role
chosen. -/
def verified (a : Admission) : Environment.Verified := a.registry.prepare a.environment a.engine

def course (a : Admission) : List Examination :=
  a.environment.course a.engine a.engine.roles a.registry.ledger

def exchanges (a : Admission) : List Exchange :=
  a.environment.exchanges a.engine a.engine.roles a.registry.ledger

variable (a : Admission)

theorem declaration_fresh : a.fresh.declaration = a.engine.declaration :=
  a.engine.declaration_forgetVerification

theorem roles_fresh : a.fresh.roles = a.engine.roles :=
  Engine.roles_eq_of_declaration a.declaration_fresh

def verification : Environment.Verified :=
  a.environment.verifyRoles a.fresh a.engine.roles a.registry.ledger

theorem verified_eq : a.verified =
    let chosen := a.verification.engine.chooseRole (a.registry.settings.preferredRole a.engine.id)
    match a.verification.interruptedAt with
    | none => { a.verification with engine := chosen }
    | some r => { a.verification with engine := { chosen with currentRole := r } } := by
  rw [verification, ← a.roles_fresh]
  rfl

theorem engine_verification : a.verification.engine = a.fresh.recordAll a.course :=
  a.environment.engine_verifyRoles a.declaration_fresh a.engine.roles a.registry.ledger

theorem interruptedAt_verified : a.verified.interruptedAt
    = (a.course.find? (·.finding.isInterrupted)).map (·.role) := by
  refine Eq.trans ?_ (a.environment.interruptedAt_verifyRoles a.declaration_fresh a.engine.roles
    a.registry.ledger)
  rw [verified_eq]
  simp only
  split <;> rfl

theorem ledger_verified : a.verified.ledger = a.verification.ledger := by
  rw [verified_eq]
  simp only
  split <;> rfl

theorem engine_verified : a.verified.engine = { a.fresh.recordAll a.course with
    currentRole := a.verified.interruptedAt.getD ((a.fresh.recordAll a.course).bestRole
      (a.registry.settings.preferredRole a.engine.id)) } := by
  rw [← engine_verification, verified_eq]
  simp only
  cases a.verification.interruptedAt with
  | none => simp only [Option.getD_none, Engine.chooseRole]
  | some r => rfl

theorem grows : a.registry.ledger.Grows a.exchanges a.verified.ledger := by
  rw [ledger_verified]
  exact a.environment.grows_verifyRoles a.declaration_fresh a.engine.roles a.registry.ledger

theorem grows_of_left {x : Examination} (hx : x ∈ a.course) :
    ∃ xs, x.left.Grows xs a.verified.ledger := by
  rw [ledger_verified]
  exact Environment.grows_of_mem_course_left a.declaration_fresh hx

theorem declaration_verified : a.verified.engine.declaration = a.engine.declaration := by
  have hRecord := (a.fresh.declaration_recordAll a.course).trans a.declaration_fresh
  rw [engine_verified]
  exact hRecord

theorem id_verified : a.verified.engine.id = a.engine.id :=
  Engine.id_eq_of_declaration a.declaration_verified

theorem enabled_verified :
    a.verified.engine.enabled = a.registry.settings.isEnabled a.engine.id := by
  rw [engine_verified]
  exact a.fresh.enabled_recordAll a.course

theorem course_nodup : (a.course.map (·.role)).Nodup :=
  a.engine.roles_nodup.sublist
    (a.environment.roles_course_prefix a.engine a.engine.roles a.registry.ledger).sublist

theorem get_fresh {r : Role} (h : a.engine.declares r = true) :
    a.fresh.executables.get r = some (.unverified (a.engine.configured r)) := by
  obtain ⟨s, hState⟩ := Option.isSome_iff_exists.mp h
  have hGet := a.engine.get_forgetVerification r
  rw [hState] at hGet
  rw [Engine.configured, hState]
  exact hGet

theorem get_of_mem_course {x : Examination} (hx : x ∈ a.course) :
    a.verified.engine.executables.get x.role
      = some ⟨a.engine.configured x.role, x.finding.executable?, x.finding.availability⟩ := by
  have hDeclared : a.engine.declares x.role = true := Engine.mem_roles.mp
    ((a.environment.roles_course_prefix a.engine a.engine.roles a.registry.ledger).subset
      (List.mem_map_of_mem hx))
  have hGet := a.fresh.get_recordAll_of_mem a.course_nodup hx
  rw [a.get_fresh hDeclared, Option.map_some, Finding.update_unverified] at hGet
  rw [engine_verified]
  exact hGet

theorem get_of_not_mem_course {r : Role} (hDeclared : a.engine.declares r = true)
    (h : r ∉ a.course.map (·.role)) :
    a.verified.engine.executables.get r = some (.unverified (a.engine.configured r)) := by
  have hGet := a.fresh.get_recordAll_of_not_mem h
  rw [a.get_fresh hDeclared] at hGet
  rw [engine_verified]
  exact hGet

/-! ## The engine later on -/

variable {a} {e : Engine}

theorem declaration_of_standing (h : a.verified.engine.standing = e.standing) :
    a.engine.declaration = e.declaration := by
  rw [← a.declaration_verified, Engine.declaration_eq_of_standing h]

theorem examined_of_mem_course (h : a.engine.declaration = e.declaration) {x : Examination}
    (hx : x ∈ a.course) : a.environment.Examined e x.role x.met x.finding x.left := by
  rw [course, a.environment.course_congr h] at hx
  exact Environment.examined_of_mem_course hx

theorem state_of_mem_course (h : a.verified.engine.standing = e.standing) {x : Examination}
    (hx : x ∈ a.course) :
    e.resolved x.role = x.finding.executable? ∧ e.availability x.role = x.finding.availability := by
  have hGet := a.get_of_mem_course hx
  rw [Engine.executables_eq_of_standing h] at hGet
  simp [Engine.resolved, Engine.availability, hGet]

theorem state_of_not_mem_course (h : a.verified.engine.standing = e.standing) {r : Role}
    (hDeclared : e.declares r = true) (hRole : r ∉ a.course.map (·.role)) :
    e.resolved r = none ∧ e.availability r = .unknown := by
  rw [← Engine.declares_eq_of_declaration (declaration_of_standing h)] at hDeclared
  have hGet := a.get_of_not_mem_course hDeclared hRole
  rw [Engine.executables_eq_of_standing h] at hGet
  simp [Engine.resolved, Engine.availability, hGet, RoleState.unverified]

theorem exists_of_resolved (h : a.verified.engine.standing = e.standing) {r : Role}
    {executable : FilePath} (hResolved : e.resolved r = some executable) :
    ∃ x ∈ a.course, x.role = r := by
  have hDeclared : e.declares r = true := by
    obtain ⟨s, hState, _⟩ := Option.bind_eq_some_iff.mp hResolved
    exact Option.isSome_iff_exists.mpr ⟨s, hState⟩
  by_cases hRole : r ∈ a.course.map (·.role)
  · exact List.mem_map.mp hRole
  · rw [(state_of_not_mem_course h hDeclared hRole).1] at hResolved
    cases hResolved

theorem interruptedAt_of_mem_course {x : Examination} (hx : x ∈ a.course)
    (hStop : x.finding.isInterrupted = true) : a.verified.interruptedAt = some x.role := by
  rw [interruptedAt_verified, course, Environment.find?_course_of_isInterrupted hx hStop]
  rfl

end Admission

end TranscodingEngines
