import TranscodingEngines.Proofs.Engine.Standing
import TranscodingEngines.Proofs.Verification.Examination

/-!
# The course of a verification

Verification examines the declared roles in order and stops behind an interrupted one. The course
lists the examinations that took place. What verification makes of the engine, of the ledger and of
the calls is read off the course: each role examined has the state that its finding gives to it, and
a role that was not reached stands behind the interrupted one.
-/

set_option autoImplicit false

namespace TranscodingEngines

/-- One role examined: the ledger that the examination met, its finding, and the ledger it left. -/
structure Examination where
  role : Role
  met : ProbeLedger
  finding : Finding
  left : ProbeLedger

def Engine.recordAll (e : Engine) (xs : List Examination) : Engine :=
  xs.foldl (fun e x => e.record x.role x.finding) e

namespace Environment

def examination (env : Environment) (e : Engine) (r : Role) (met : ProbeLedger) : Examination :=
  ⟨r, met, (env.examine e r met).1, (env.examine e r met).2.1⟩

/-- The examinations of roles in their order, up to the first that is interrupted. -/
def course (env : Environment) (e : Engine) : List Role → ProbeLedger → List Examination
  | [], _ => []
  | r :: rest, met =>
    let x := env.examination e r met
    x :: if x.finding.isInterrupted then [] else env.course e rest x.left

def exchangesOf (env : Environment) (e : Engine) (x : Examination) : List Exchange :=
  (x.left.calls.drop x.met.calls.length).map (env.exchange e x.met)

/-- The calls made while roles are examined, with their answers. -/
def exchanges (env : Environment) (e : Engine) (roles : List Role) (ledger : ProbeLedger) :
    List Exchange :=
  (env.course e roles ledger).flatMap (env.exchangesOf e)

variable {env : Environment} {e : Engine} {r : Role} {met left : ProbeLedger} {f : Finding}

/-! ## Examinations -/

theorem Examined.grows (h : Examined env e r met f left) :
    met.Grows ((left.calls.drop met.calls.length).map (env.exchange e met)) left := by
  have hNone : met.Grows ((met.calls.drop met.calls.length).map (env.exchange e met)) met := by
    rw [List.drop_length, List.map_nil]
    exact .refl
  have hOne : ∀ {executable : Executable} {d : Descriptor}, e.family.descriptor? = some d →
      met.cache.get? executable.path = none →
      met.Grows (((met.after (env.exchange e met ⟨executable.path, d.args⟩)).calls.drop
        met.calls.length).map (env.exchange e met))
        (met.after (env.exchange e met ⟨executable.path, d.args⟩)) := by
    intro executable d hFamily hNew
    rw [ProbeLedger.calls_after, List.drop_left]
    exact ProbeLedger.Grows.refl.exchange _ ⟨d, hFamily, rfl⟩ rfl hNew
  cases h with
  | undefined => exact hNone
  | incompatible => exact hNone
  | unlocatable => exact hNone
  | inaccessible => exact hNone
  | withoutAvisynth => exact hNone
  | onRecord => exact hNone
  | unprobeable => exact hNone
  | interrupted _ _ hNew hFamily => exact hOne hFamily hNew
  | judged _ _ hNew hFamily => exact hOne hFamily hNew

theorem examination_grows (env : Environment) (e : Engine) (r : Role) (met : ProbeLedger) :
    met.Grows (env.exchangesOf e (env.examination e r met)) (env.examination e r met).left :=
  (env.examine_examined e r met).grows

theorem examination_congr (env : Environment) {e e' : Engine} (h : e.declaration = e'.declaration)
    (r : Role) (met : ProbeLedger) : env.examination e r met = env.examination e' r met := by
  rw [examination, env.examine_congr h, examination]

/-! ## The course -/

theorem course_cons (env : Environment) (e : Engine) (r : Role) (rest : List Role)
    (met : ProbeLedger) : env.course e (r :: rest) met = env.examination e r met ::
      if (env.examination e r met).finding.isInterrupted then []
      else env.course e rest (env.examination e r met).left := rfl

theorem course_congr (env : Environment) {e e' : Engine} (h : e.declaration = e'.declaration)
    (roles : List Role) (met : ProbeLedger) : env.course e roles met = env.course e' roles met := by
  induction roles generalizing met with
  | nil => rfl
  | cons r rest ih => rw [course_cons, course_cons, env.examination_congr h, ih]

theorem roles_course_prefix (env : Environment) (e : Engine) (roles : List Role)
    (met : ProbeLedger) : (env.course e roles met).map (·.role) <+: roles := by
  induction roles generalizing met with
  | nil => exact List.prefix_rfl
  | cons r rest ih =>
    rw [course_cons, List.map_cons, List.cons_prefix_cons]
    refine ⟨rfl, ?_⟩
    split
    · exact List.nil_prefix
    · exact ih _

theorem course_prefix (env : Environment) (e : Engine) (roles rest : List Role)
    (met : ProbeLedger) : env.course e roles met <+: env.course e (roles ++ rest) met := by
  induction roles generalizing met with
  | nil => exact List.nil_prefix
  | cons r roles ih =>
    rw [List.cons_append, course_cons, course_cons, List.cons_prefix_cons]
    refine ⟨rfl, ?_⟩
    split
    · exact List.nil_prefix
    · exact ih _

/-- An examination of the course met what the exchanges before it made of the ledger. -/
theorem grows_of_mem_course {x : Examination} {roles : List Role}
    (h : x ∈ env.course e roles met) : x = env.examination e x.role x.met ∧
      ∃ xs, xs <+: env.exchanges e roles met ∧ met.Grows xs x.met := by
  induction roles generalizing met with
  | nil => cases h
  | cons r rest ih =>
    rw [course_cons] at h
    rw [exchanges, course_cons, List.flatMap_cons]
    rcases List.mem_cons.mp h with rfl | h
    · exact ⟨rfl, [], List.nil_prefix, .refl⟩
    · split at h
      · cases h
      · rename_i hGo
        obtain ⟨hx, xs, hPrefix, hGrows⟩ := ih h
        rw [if_neg hGo]
        exact ⟨hx, _, (List.prefix_append_right_inj _).mpr hPrefix,
          (env.examination_grows e r met).trans hGrows⟩

theorem exists_of_mem_exchanges {x : Exchange} {roles : List Role}
    (h : x ∈ env.exchanges e roles met) : ∃ l call, x = env.exchange e l call := by
  obtain ⟨y, _, hx⟩ := List.mem_flatMap.mp h
  obtain ⟨call, _, rfl⟩ := List.mem_map.mp hx
  exact ⟨y.met, call, rfl⟩

theorem examined_of_mem_course {x : Examination} {roles : List Role}
    (h : x ∈ env.course e roles met) : Examined env e x.role x.met x.finding x.left := by
  rw [(grows_of_mem_course h).1]
  exact env.examine_examined e x.role x.met

theorem find?_course_of_isInterrupted {x : Examination} {roles : List Role}
    (h : x ∈ env.course e roles met) (hStop : x.finding.isInterrupted = true) :
    (env.course e roles met).find? (·.finding.isInterrupted) = some x := by
  induction roles generalizing met with
  | nil => cases h
  | cons r rest ih =>
    rw [course_cons] at h ⊢
    rw [List.find?_cons]
    cases hFirst : (env.examination e r met).finding.isInterrupted with
    | true =>
      rw [if_pos hFirst, List.mem_singleton] at h
      rw [h]
    | false =>
      rw [if_neg (by simp [hFirst])] at h ⊢
      rcases List.mem_cons.mp h with rfl | h
      · rw [hFirst] at hStop
        cases hStop
      · exact ih h

theorem exists_interrupted_of_not_mem {roles : List Role} (hRole : r ∈ roles)
    (h : r ∉ (env.course e roles met).map (·.role)) :
    ∃ x ∈ env.course e roles met, x.finding.isInterrupted = true ∧ [x.role, r].Sublist roles := by
  induction roles generalizing met with
  | nil => cases hRole
  | cons q rest ih =>
    rw [course_cons] at h ⊢
    rw [List.map_cons, List.mem_cons, not_or] at h
    have hRest : r ∈ rest := (List.mem_cons.mp hRole).resolve_left h.1
    by_cases hStop : (env.examination e q met).finding.isInterrupted = true
    · exact ⟨_, List.mem_cons_self, hStop, (List.singleton_sublist.mpr hRest).cons_cons q⟩
    · rw [if_neg hStop] at h ⊢
      obtain ⟨x, hx, hInterrupted, hBehind⟩ := ih hRest h.2
      exact ⟨x, List.mem_cons_of_mem _ hx, hInterrupted, hBehind.cons q⟩

/-! ## What verification makes of its course -/

theorem verifyRoles_cons (env : Environment) (e : Engine) (r : Role) (rest : List Role)
    (met : ProbeLedger) : env.verifyRoles e (r :: rest) met =
      let x := env.examination e r met
      let events := (env.examine e r met).2.2
      if x.finding.isInterrupted then ⟨e.record r x.finding, some r, x.left, events⟩
      else
        let later := env.verifyRoles (e.record r x.finding) rest x.left
        { later with events := events ++ later.events } := by
  rw [verifyRoles]
  split
  rename_i finding left events hExamine
  have hExamination : env.examination e r met = ⟨r, met, finding, left⟩ := by
    rw [examination, hExamine]
  simp only [hExamination, hExamine]
  cases finding <;> rfl

theorem engine_verifyRoles (env : Environment) {e e₀ : Engine}
    (h : e.declaration = e₀.declaration) (roles : List Role) (met : ProbeLedger) :
    (env.verifyRoles e roles met).engine = e.recordAll (env.course e₀ roles met) := by
  -- The engine changes from role to role, the course is that of the engine declared.
  induction roles generalizing e met with
  | nil => rfl
  | cons r rest ih =>
    rw [verifyRoles_cons, course_cons, env.examination_congr h]
    simp only
    split
    · rfl
    · exact ih ((e.declaration_record r _).trans h) _

theorem grows_verifyRoles (env : Environment) {e e₀ : Engine}
    (h : e.declaration = e₀.declaration) (roles : List Role) (met : ProbeLedger) :
    met.Grows (env.exchanges e₀ roles met) (env.verifyRoles e roles met).ledger := by
  induction roles generalizing e met with
  | nil => exact .refl
  | cons r rest ih =>
    rw [verifyRoles_cons, exchanges, course_cons, List.flatMap_cons, env.examination_congr h]
    simp only
    have hFirst := env.examination_grows e₀ r met
    split
    · rw [List.flatMap_nil, List.append_nil]
      exact hFirst
    · exact hFirst.trans (ih ((e.declaration_record r _).trans h) _)

theorem grows_of_mem_course_left {e₀ : Engine} (h : e.declaration = e₀.declaration)
    {x : Examination} {roles : List Role} (hx : x ∈ env.course e₀ roles met) :
    ∃ xs, x.left.Grows xs (env.verifyRoles e roles met).ledger := by
  induction roles generalizing e met with
  | nil => cases hx
  | cons r rest ih =>
    rw [course_cons] at hx
    rw [verifyRoles_cons, env.examination_congr h]
    simp only
    have hDeclaration : ∀ f, (e.record r f).declaration = e₀.declaration :=
      fun f => (e.declaration_record r f).trans h
    rcases List.mem_cons.mp hx with rfl | hx
    · split
      · exact ⟨_, .refl⟩
      · exact ⟨_, grows_verifyRoles env (hDeclaration _) rest _⟩
    · split at hx
      · cases hx
      · rename_i hGo
        rw [if_neg hGo]
        exact ih (hDeclaration _) hx

theorem interruptedAt_verifyRoles (env : Environment) {e e₀ : Engine}
    (h : e.declaration = e₀.declaration) (roles : List Role) (met : ProbeLedger) :
    (env.verifyRoles e roles met).interruptedAt
      = ((env.course e₀ roles met).find? (·.finding.isInterrupted)).map (·.role) := by
  induction roles generalizing e met with
  | nil => rfl
  | cons r rest ih =>
    rw [verifyRoles_cons, course_cons, env.examination_congr h]
    simp only
    rw [List.find?_cons]
    cases hStop : (env.examination e₀ r met).finding.isInterrupted with
    | true => rfl
    | false => exact ih ((e.declaration_record r _).trans h) _

end Environment

end TranscodingEngines
