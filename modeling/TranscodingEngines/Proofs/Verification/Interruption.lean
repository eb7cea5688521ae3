import TranscodingEngines.Proofs.Verification.Course

/-!
# Interrupted verification

Verification comes to the end of the roles unless the runner interrupts the probe of some role. The
roles before the first interrupted one are examined as they would be by a runner that answers where
this one interrupts, and nothing is called behind the interrupted probe.
-/

set_option autoImplicit false

namespace TranscodingEngines

namespace Environment

variable {env env' : Environment} {e : Engine} {r : Role} {met left : ProbeLedger} {f : Finding}

/-- The role comes to a probe of an executable without a record, and the runner interrupts it. -/
def Interrupts (env : Environment) (e : Engine) (r : Role) (met : ProbeLedger) : Prop :=
  ∃ executable d, env.Reaches e r met executable ∧ env.lacksAvisynth e = false ∧
    met.cache.get? executable.path = none ∧ e.family.descriptor? = some d ∧
    env.runner met.calls ⟨executable.path, d.args⟩ = .error .interrupted

def ledgerAfter (env : Environment) (e : Engine) (roles : List Role) (met : ProbeLedger) :
    ProbeLedger :=
  roles.foldl (fun l r => (env.examine e r l).2.1) met

/-- None of the roles is interrupted when they are examined one after the other. -/
def Completes (env : Environment) (e : Engine) : List Role → ProbeLedger → Prop
  | [], _ => True
  | r :: rest, met => ¬ env.Interrupts e r met ∧ env.Completes e rest (env.examine e r met).2.1

/-- The role is the first one that is interrupted, between the roles before and behind it. -/
structure InterruptedFirst (env : Environment) (e : Engine) (met : ProbeLedger)
    (earlier : List Role) (r : Role) (later : List Role) : Prop where
  roles : e.roles = earlier ++ r :: later
  before : env.Completes e earlier met
  stops : env.Interrupts e r (env.ledgerAfter e earlier met)

theorem completes_or_exists (env : Environment) (e : Engine) (roles : List Role)
    (met : ProbeLedger) : env.Completes e roles met ∨ ∃ earlier r later,
      roles = earlier ++ r :: later ∧ env.Completes e earlier met ∧
        env.Interrupts e r (env.ledgerAfter e earlier met) := by
  induction roles generalizing met with
  | nil => exact .inl trivial
  | cons q rest ih =>
    by_cases hStop : env.Interrupts e q met
    · exact .inr ⟨[], q, rest, rfl, trivial, hStop⟩
    · rcases ih (env.examine e q met).2.1 with hAll | ⟨earlier, r, later, rfl, hBefore, hStops⟩
      · exact .inl ⟨hStop, hAll⟩
      · exact .inr ⟨q :: earlier, r, later, rfl, ⟨hStop, hBefore⟩, hStops⟩

/-! ## Examinations that are not interrupted -/

theorem Examined.interrupts (h : Examined env e r met f left) (hStop : f.isInterrupted = true) :
    env.Interrupts e r met := by
  cases h with
  | interrupted hReach hLacks hNew hFamily hReply =>
    exact ⟨_, _, hReach, hLacks, hNew, hFamily, hReply⟩
  | _ => cases hStop

theorem interrupts_iff :
    env.Interrupts e r met ↔ (env.examination e r met).finding.isInterrupted = true := by
  constructor
  · rintro ⟨executable, d, hReach, hLacks, hNew, hFamily, hReply⟩
    have hFinding := (Examined.interrupted hReach hLacks hNew hFamily hReply).examine_eq.1
    rw [examination, hFinding]
    rfl
  · exact (env.examine_examined e r met).interrupts

theorem isInterrupted_eq_false (h : ¬ env.Interrupts e r met) :
    (env.examination e r met).finding.isInterrupted = false :=
  eq_false_of_ne_true fun hStop => h (interrupts_iff.mpr hStop)

theorem Examined.availability_ne_unknown (h : Examined env e r met f left)
    (hGo : f.isInterrupted = false) : f.availability ≠ .unknown := by
  have hVerdict : ∀ v : Verdict, Availability.ofVerdict v ≠ .unknown := by
    rintro (reason | version) <;> simp [Availability.ofVerdict]
  cases h with
  | interrupted => cases hGo
  | onRecord => exact hVerdict _
  | judged => exact hVerdict _
  | _ => simp [Finding.availability]

/-- The runner of the second environment answers as that of the first one does unless that one is
interrupted, and nothing else differs. -/
structure Completed (env env' : Environment) : Prop where
  platform : env'.platform = env.platform
  workingDirectory : env'.workingDirectory = env.workingDirectory
  access : env'.access = env.access
  clock : env'.clock = env.clock
  runner : ∀ calls call, env.runner calls call ≠ .error .interrupted →
    env'.runner calls call = env.runner calls call

theorem Completed.reaches (h : Completed env env') {executable : Executable}
    (hReach : env.Reaches e r met executable) : env'.Reaches e r met executable where
  resolved := by
    rw [h.platform, h.workingDirectory]
    exact hReach.resolved
  accessible := by
    rw [h.access]
    exact hReach.accessible

theorem Completed.lacksAvisynth (h : Completed env env') (e : Engine) :
    env'.lacksAvisynth e = env.lacksAvisynth e := by
  rw [Environment.lacksAvisynth, h.platform, Environment.lacksAvisynth]

theorem Completed.after_exchange (h : Completed env env') {d : Descriptor} {call : Call}
    (hFamily : e.family.descriptor? = some d)
    (hReply : env'.runner met.calls call = env.runner met.calls call) :
    met.after (env'.exchange e met call) = met.after (env.exchange e met call) := by
  have hMoment : (env'.exchange e met call).moment = (env.exchange e met call).moment :=
    congrFun h.clock _
  rw [ProbeLedger.after, ProbeLedger.after, env'.verdict?_exchange met call hFamily,
    env.verdict?_exchange met call hFamily, h.platform, hReply, hMoment]
  rfl

/-- An examination that is not interrupted goes the same way with a runner that is not. -/
theorem Completed.examined (h : Completed env env') (hExamined : Examined env e r met f left)
    (hGo : f.isInterrupted = false) : Examined env' e r met f left := by
  cases hExamined with
  | undefined hPath => exact .undefined hPath
  | incompatible hPath hNeeds hPlatform =>
    rw [← h.platform] at hPlatform
    exact .incompatible hPath hNeeds hPlatform
  | unlocatable hPath hSuits hLocate =>
    rw [← h.platform] at hSuits hLocate ⊢
    rw [← h.workingDirectory] at hLocate
    exact .unlocatable hPath hSuits hLocate
  | inaccessible hResolve hAccess =>
    rw [← h.platform, ← h.workingDirectory] at hResolve
    rw [← h.access] at hAccess
    exact .inaccessible hResolve hAccess
  | withoutAvisynth hReach hLacks =>
    rw [← h.lacksAvisynth] at hLacks
    exact .withoutAvisynth (h.reaches hReach) hLacks
  | onRecord hReach hLacks hRecord =>
    rw [← h.lacksAvisynth] at hLacks
    exact .onRecord (h.reaches hReach) hLacks hRecord
  | unprobeable hReach hLacks hNew hFamily =>
    rw [← h.lacksAvisynth] at hLacks
    exact .unprobeable (h.reaches hReach) hLacks hNew hFamily
  | interrupted => cases hGo
  | @judged executable d verdict hReach hLacks hNew hFamily hJudge =>
    have hAnswered : env.runner met.calls ⟨executable.path, d.args⟩ ≠ .error .interrupted := by
      intro hReply
      rw [Descriptor.judge_eq_none_iff.mpr hReply] at hJudge
      cases hJudge
    have hReply := h.runner _ _ hAnswered
    rw [← h.lacksAvisynth] at hLacks
    rw [← h.platform, ← hReply] at hJudge
    rw [← h.after_exchange hFamily hReply]
    exact .judged (h.reaches hReach) hLacks hNew hFamily hJudge

theorem Completed.examination_eq (h : Completed env env') (hGo : ¬ env.Interrupts e r met) :
    env'.examination e r met = env.examination e r met := by
  have hExamined := env.examine_examined e r met
  obtain ⟨hFinding, hLeft⟩ := (h.examined hExamined (isInterrupted_eq_false hGo)).examine_eq
  rw [examination, hFinding, hLeft, examination]

/-! ## The course up to an interruption -/

theorem course_append {earlier rest : List Role} (h : env.Completes e earlier met) :
    env.course e (earlier ++ rest) met
      = env.course e earlier met ++ env.course e rest (env.ledgerAfter e earlier met) := by
  induction earlier generalizing met with
  | nil => rfl
  | cons q earlier ih =>
    have hGo := ne_true_of_eq_false (isInterrupted_eq_false h.1)
    rw [List.cons_append, course_cons, course_cons, if_neg hGo, if_neg hGo, List.cons_append]
    exact congrArg _ (ih h.2)

theorem course_of_interrupts {later : List Role} (h : env.Interrupts e r met) :
    env.course e (r :: later) met = [env.examination e r met] := by
  rw [course_cons, if_pos (interrupts_iff.mp h)]

theorem InterruptedFirst.course_eq {earlier later : List Role}
    (h : env.InterruptedFirst e met earlier r later) : env.course e e.roles met
      = env.course e earlier met ++ [env.examination e r (env.ledgerAfter e earlier met)] := by
  rw [h.roles, course_append h.before, course_of_interrupts h.stops]

theorem Completes.roles_course {roles : List Role} (h : env.Completes e roles met) :
    (env.course e roles met).map (·.role) = roles := by
  induction roles generalizing met with
  | nil => rfl
  | cons q rest ih =>
    rw [course_cons, if_neg (ne_true_of_eq_false (isInterrupted_eq_false h.1)), List.map_cons]
    exact congrArg _ (ih h.2)

theorem Completes.isInterrupted {roles : List Role} (h : env.Completes e roles met)
    {x : Examination} (hx : x ∈ env.course e roles met) : x.finding.isInterrupted = false := by
  induction roles generalizing met with
  | nil => cases hx
  | cons q rest ih =>
    rw [course_cons, if_neg (ne_true_of_eq_false (isInterrupted_eq_false h.1))] at hx
    rcases List.mem_cons.mp hx with rfl | hx
    · exact isInterrupted_eq_false h.1
    · exact ih h.2 hx

theorem Completes.grows {roles : List Role} (h : env.Completes e roles met) :
    met.Grows (env.exchanges e roles met) (env.ledgerAfter e roles met) := by
  induction roles generalizing met with
  | nil => exact .refl
  | cons q rest ih =>
    rw [exchanges, course_cons, if_neg (ne_true_of_eq_false (isInterrupted_eq_false h.1)),
      List.flatMap_cons]
    exact (env.examination_grows e q met).trans (ih h.2)

theorem Completed.course_eq (h : Completed env env') {roles : List Role}
    (hCompletes : env.Completes e roles met) :
    env'.course e roles met = env.course e roles met := by
  induction roles generalizing met with
  | nil => rfl
  | cons q rest ih =>
    have hGo := ne_true_of_eq_false (isInterrupted_eq_false hCompletes.1)
    rw [course_cons, course_cons, h.examination_eq hCompletes.1, if_neg hGo, if_neg hGo]
    exact congrArg _ (ih hCompletes.2)

/-! ## The calls up to an interruption -/

theorem Examined.replied (h : Examined env e r met f left) (hGo : f.isInterrupted = false)
    {x : Exchange} (hx : x ∈ (left.calls.drop met.calls.length).map (env.exchange e met)) :
    x.reply ≠ .error .interrupted := by
  have hNone : x ∉ (met.calls.drop met.calls.length).map (env.exchange e met) := by
    rw [List.drop_length, List.map_nil]
    exact List.not_mem_nil
  cases h with
  | interrupted => cases hGo
  | @judged executable d verdict _ _ _ _ hJudge =>
    rw [ProbeLedger.calls_after, List.drop_left, List.map_singleton] at hx
    rw [List.mem_singleton.mp hx]
    intro hReply
    change env.runner met.calls ⟨executable.path, d.args⟩ = .error .interrupted at hReply
    rw [Descriptor.judge_eq_none_iff.mpr hReply] at hJudge
    cases hJudge
  | _ => exact absurd hx hNone

theorem Completes.replied {roles : List Role} (h : env.Completes e roles met) {x : Exchange}
    (hx : x ∈ env.exchanges e roles met) : x.reply ≠ .error .interrupted := by
  obtain ⟨y, hy, hExchange⟩ := List.mem_flatMap.mp hx
  exact (examined_of_mem_course hy).replied (h.isInterrupted hy) hExchange

theorem Interrupts.examination (h : env.Interrupts e r met) :
    ∃ (executable : Executable) (d : Descriptor),
    (e.resolve r env.platform env.workingDirectory).1 = .ok executable ∧
    env.runner met.calls ⟨executable.path, d.args⟩ = .error .interrupted ∧
    (env.examination e r met).finding = .interrupted executable.path ∧
    env.exchangesOf e (env.examination e r met)
      = [env.exchange e met ⟨executable.path, d.args⟩] := by
  obtain ⟨executable, d, hReach, hLacks, hNew, hFamily, hReply⟩ := h
  obtain ⟨hFinding, hLeft⟩ := (Examined.interrupted hReach hLacks hNew hFamily hReply).examine_eq
  refine ⟨executable, d, hReach.resolved, hReply, hFinding, ?_⟩
  rw [exchangesOf, Environment.examination, hLeft, ProbeLedger.calls_after, List.drop_left,
    List.map_singleton]
  rfl

end Environment

end TranscodingEngines
