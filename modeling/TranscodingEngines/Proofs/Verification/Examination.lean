import TranscodingEngines.Verification
import TranscodingEngines.Proofs.Probe.Ledger

/-!
# How the examination of a role can end

`Examined` lists the nine ways, each with the circumstances that lead to it, the finding, and the
ledger that is left. Everything proved about verification goes through this list.
-/

set_option autoImplicit false

namespace TranscodingEngines

theorem Engine.usablePath_eq_none_iff {e : Engine} {r : Role} :
    e.usablePath r = none ↔ ∀ p, e.configured r = some p → p.isEmpty = true := by
  simp [usablePath, Option.filter_eq_none_iff]

theorem Engine.usablePath_eq_some_iff {e : Engine} {r : Role} {p : FilePath} :
    e.usablePath r = some p ↔ e.configured r = some p ∧ p.isEmpty = false := by
  simp [usablePath, Option.filter_eq_some_iff]

namespace Environment

theorem lacksAvisynth_iff {env : Environment} {e : Engine} : env.lacksAvisynth e = true ↔
    env.platform.isWindows = true ∧ e.requiresAvisynth = true ∧
      env.platform.avisynthInstalled = false := by
  simp [lacksAvisynth, and_assoc]

/-- The path of the role resolves to the executable, and the executable passes the access check
after the calls made so far. -/
structure Reaches (env : Environment) (e : Engine) (r : Role) (met : ProbeLedger)
    (executable : Executable) : Prop where
  resolved : (e.resolve r env.platform env.workingDirectory).1 = .ok executable
  accessible : ∀ path, executable = .absolute path → env.access met.calls path = .ok ()

/-- The call by which an executable is probed, to be answered by the runner. -/
def exchange (env : Environment) (e : Engine) (met : ProbeLedger) (call : Call) : Exchange :=
  ⟨e, env.platform, env.runner, env.clock, met.calls, call⟩

/-- What examining a role can find, and the ledger that it leaves. -/
inductive Examined (env : Environment) (e : Engine) (r : Role) (met : ProbeLedger) :
    Finding → ProbeLedger → Prop
  | undefined (hPath : e.usablePath r = none) :
      Examined env e r met (.refused (.notDefined e.name)) met
  | incompatible {p : FilePath} (hPath : e.usablePath r = some p)
      (hNeeds : e.requiresAvisynth = true) (hPlatform : env.platform.isWindows = false) :
      Examined env e r met (.refused (.platformIncompatible e.name)) met
  | unlocatable {p : FilePath} {cause : SystemError} (hPath : e.usablePath r = some p)
      (hSuits : (e.requiresAvisynth && !env.platform.isWindows) = false)
      (hLocate : (p.completed env.platform).locate env.workingDirectory = .error cause) :
      Examined env e r met (.refused (.notFound (p.completed env.platform) e.name)) met
  | inaccessible {path : FilePath} {failure : AccessFailure}
      (hResolve : (e.resolve r env.platform env.workingDirectory).1 = .ok (.absolute path))
      (hAccess : env.access met.calls path = .error failure) :
      Examined env e r met (.refused (failure.reason e.name path)) met
  | withoutAvisynth {executable : Executable} (hReach : env.Reaches e r met executable)
      (hLacks : env.lacksAvisynth e = true) :
      Examined env e r met
        (.settled executable.path (.unavailable (.avisynthNotFound e.name))) met
  | onRecord {executable : Executable} {record : ProbeRecord}
      (hReach : env.Reaches e r met executable) (hLacks : env.lacksAvisynth e = false)
      (hRecord : met.cache.get? executable.path = some record) :
      Examined env e r met (.settled executable.path (.ofVerdict record.verdict)) met
  | unprobeable {executable : Executable} (hReach : env.Reaches e r met executable)
      (hLacks : env.lacksAvisynth e = false) (hNew : met.cache.get? executable.path = none)
      (hFamily : e.family.descriptor? = none) :
      Examined env e r met (.settled executable.path (.available none)) met
  | interrupted {executable : Executable} {d : Descriptor}
      (hReach : env.Reaches e r met executable) (hLacks : env.lacksAvisynth e = false)
      (hNew : met.cache.get? executable.path = none) (hFamily : e.family.descriptor? = some d)
      (hReply : env.runner met.calls ⟨executable.path, d.args⟩ = .error .interrupted) :
      Examined env e r met (.interrupted executable.path)
        (met.after (env.exchange e met ⟨executable.path, d.args⟩))
  | judged {executable : Executable} {d : Descriptor} {verdict : Verdict}
      (hReach : env.Reaches e r met executable) (hLacks : env.lacksAvisynth e = false)
      (hNew : met.cache.get? executable.path = none) (hFamily : e.family.descriptor? = some d)
      (hJudge : d.judge e.name env.platform (env.runner met.calls ⟨executable.path, d.args⟩)
        = some verdict) :
      Examined env e r met (.settled executable.path (.ofVerdict verdict))
        (met.after (env.exchange e met ⟨executable.path, d.args⟩))

theorem verdict?_exchange (env : Environment) {e : Engine} {d : Descriptor} (met : ProbeLedger)
    (call : Call) (hFamily : e.family.descriptor? = some d) :
    (env.exchange e met call).verdict?
      = d.judge e.name env.platform (env.runner met.calls call) := by
  rw [Exchange.verdict?, Exchange.reply, exchange, hFamily, Option.bind_some]

theorem get?_after_exchange {env : Environment} {e : Engine} {d : Descriptor} {met : ProbeLedger}
    {executable : FilePath} {verdict : Verdict} (hFamily : e.family.descriptor? = some d)
    (hNew : met.cache.get? executable = none)
    (hJudge : d.judge e.name env.platform (env.runner met.calls ⟨executable, d.args⟩)
      = some verdict) :
    (met.after (env.exchange e met ⟨executable, d.args⟩)).cache.get? executable
      = some ⟨executable, verdict, env.clock (met.calls ++ [⟨executable, d.args⟩])⟩ := by
  have hRecord := ProbeLedger.get?_after_self (x := env.exchange e met ⟨executable, d.args⟩) hNew
  rw [Exchange.record?, env.verdict?_exchange met _ hFamily, hJudge] at hRecord
  exact hRecord

variable {env : Environment} {e : Engine} {r : Role} {met left : ProbeLedger} {f : Finding}

/-! ## Probes -/

theorem probe_of_record {executable : FilePath} {record : ProbeRecord}
    (hRecord : met.cache.get? executable = some record) :
    (probe env.runner env.clock env.platform e r executable met).1 = .verdict record.verdict ∧
      (probe env.runner env.clock env.platform e r executable met).2.1 = met := by
  simp only [probe, hRecord, and_self]

theorem probe_of_unprobeable {executable : FilePath} (hNew : met.cache.get? executable = none)
    (hFamily : e.family.descriptor? = none) :
    (probe env.runner env.clock env.platform e r executable met).1 = .noProbe ∧
      (probe env.runner env.clock env.platform e r executable met).2.1 = met := by
  simp only [probe, hNew, hFamily, and_self]

theorem probe_of_new {executable : FilePath} {d : Descriptor} {verdict? : Option Verdict}
    (hNew : met.cache.get? executable = none) (hFamily : e.family.descriptor? = some d)
    (hJudge : d.judge e.name env.platform (env.runner met.calls ⟨executable, d.args⟩) = verdict?) :
    (probe env.runner env.clock env.platform e r executable met).1
        = (match verdict? with
          | none => .interrupted
          | some verdict => .verdict verdict) ∧
      (probe env.runner env.clock env.platform e r executable met).2.1
        = met.after (env.exchange e met ⟨executable, d.args⟩) := by
  have hVerdict := env.verdict?_exchange met ⟨executable, d.args⟩ hFamily
  rw [hJudge] at hVerdict
  cases verdict? with
  | none =>
    simp only [probe, hNew, hFamily, hJudge, ProbeLedger.after, hVerdict, true_and]
    rfl
  | some verdict =>
    simp only [probe, hNew, hFamily, hJudge, ProbeLedger.after, hVerdict, true_and]
    rfl

/-! ## The ways cover every examination -/

theorem examineExecutable_eq_of_lacks (r : Role) (executable : FilePath) (met : ProbeLedger)
    (hLacks : env.lacksAvisynth e = true) :
    (env.examineExecutable e r executable met).1
        = .settled executable (.unavailable (.avisynthNotFound e.name)) ∧
      (env.examineExecutable e r executable met).2.1 = met := by
  rw [examineExecutable, if_pos hLacks]
  exact ⟨rfl, rfl⟩

theorem examineExecutable_eq_of_not_lacks {executable : FilePath} {result : ProbeResult}
    (hLacks : env.lacksAvisynth e = false)
    (hProbe : (probe env.runner env.clock env.platform e r executable met).1 = result ∧
      (probe env.runner env.clock env.platform e r executable met).2.1 = left) :
    (env.examineExecutable e r executable met).1 = findingOf executable result ∧
      (env.examineExecutable e r executable met).2.1 = left := by
  obtain ⟨rfl, rfl⟩ := hProbe
  rw [examineExecutable, if_neg (ne_true_of_eq_false hLacks)]
  exact ⟨rfl, rfl⟩

theorem examineExecutable_examined {executable : Executable}
    (hReach : env.Reaches e r met executable) :
    Examined env e r met (env.examineExecutable e r executable.path met).1
      (env.examineExecutable e r executable.path met).2.1 := by
  cases hLacks : env.lacksAvisynth e with
  | true =>
    obtain ⟨hFinding, hLeft⟩ := examineExecutable_eq_of_lacks r executable.path met hLacks
    rw [hFinding, hLeft]
    exact .withoutAvisynth hReach hLacks
  | false =>
    cases hRecord : met.cache.get? executable.path with
    | some record =>
      obtain ⟨hFinding, hLeft⟩ := examineExecutable_eq_of_not_lacks hLacks (probe_of_record hRecord)
      rw [hFinding, hLeft]
      exact .onRecord hReach hLacks hRecord
    | none =>
      cases hFamily : e.family.descriptor? with
      | none =>
        obtain ⟨hFinding, hLeft⟩ :=
          examineExecutable_eq_of_not_lacks hLacks (probe_of_unprobeable hRecord hFamily)
        rw [hFinding, hLeft]
        exact .unprobeable hReach hLacks hRecord hFamily
      | some d =>
        cases hJudge : d.judge e.name env.platform
            (env.runner met.calls ⟨executable.path, d.args⟩) with
        | none =>
          obtain ⟨hFinding, hLeft⟩ :=
            examineExecutable_eq_of_not_lacks hLacks (probe_of_new hRecord hFamily hJudge)
          rw [hFinding, hLeft]
          exact .interrupted hReach hLacks hRecord hFamily (Descriptor.judge_eq_none_iff.mp hJudge)
        | some verdict =>
          obtain ⟨hFinding, hLeft⟩ :=
            examineExecutable_eq_of_not_lacks hLacks (probe_of_new hRecord hFamily hJudge)
          rw [hFinding, hLeft]
          exact .judged hReach hLacks hRecord hFamily hJudge

theorem examine_examined (env : Environment) (e : Engine) (r : Role) (met : ProbeLedger) :
    Examined env e r met (env.examine e r met).1 (env.examine e r met).2.1 := by
  cases hPath : e.usablePath r with
  | none =>
    simp only [examine, Engine.resolve, hPath]
    exact .undefined hPath
  | some p =>
    by_cases hNeeds : (e.requiresAvisynth && !env.platform.isWindows) = true
    · simp only [examine, Engine.resolve, hPath, if_pos hNeeds]
      rw [Bool.and_eq_true, Bool.not_eq_true'] at hNeeds
      exact .incompatible hPath hNeeds.1 hNeeds.2
    · cases hLocate : (p.completed env.platform).locate env.workingDirectory with
      | error cause =>
        simp only [examine, Engine.resolve, hPath, if_neg hNeeds, hLocate]
        exact .unlocatable hPath (eq_false_of_ne_true hNeeds) hLocate
      | ok executable =>
        have hResolve : e.resolve r env.platform env.workingDirectory = (.ok executable, []) := by
          simp only [Engine.resolve, hPath, if_neg hNeeds, hLocate]
        cases executable with
        | bare path =>
          simp only [examine, hResolve, checkAccess]
          have hReach : env.Reaches e r met (.bare path) := by
            refine ⟨by rw [hResolve], ?_⟩
            intro q hq
            cases hq
          exact examineExecutable_examined hReach
        | absolute path =>
          cases hAccess : env.access met.calls path with
          | error failure =>
            simp only [examine, hResolve, checkAccess, verifyAccess, hAccess]
            exact .inaccessible (by rw [hResolve]) hAccess
          | ok =>
            simp only [examine, hResolve, checkAccess, verifyAccess, hAccess]
            have hReach : env.Reaches e r met (.absolute path) := by
              refine ⟨by rw [hResolve], ?_⟩
              intro q hq
              cases hq
              exact hAccess
            exact examineExecutable_examined hReach

/-! ## The ways exclude each other -/

theorem examine_of_reaches {executable : Executable} (hReach : env.Reaches e r met executable) :
    (env.examine e r met).1 = (env.examineExecutable e r executable.path met).1 ∧
      (env.examine e r met).2.1 = (env.examineExecutable e r executable.path met).2.1 := by
  obtain ⟨hResolved, hAccessible⟩ := hReach
  rcases hResolve : e.resolve r env.platform env.workingDirectory with ⟨result, events⟩
  rw [hResolve] at hResolved
  subst hResolved
  cases executable with
  | bare path => simp only [examine, hResolve, checkAccess, and_self]
  | absolute path =>
    simp only [examine, hResolve, checkAccess, verifyAccess, hAccessible path rfl, and_self]

theorem Examined.examine_eq (h : Examined env e r met f left) :
    (env.examine e r met).1 = f ∧ (env.examine e r met).2.1 = left := by
  cases h with
  | undefined hPath => simp only [examine, Engine.resolve, hPath, and_self]
  | incompatible hPath hNeeds hPlatform =>
    simp [examine, Engine.resolve, hPath, hNeeds, hPlatform]
  | unlocatable hPath hSuits hLocate =>
    simp [examine, Engine.resolve, hPath, hSuits, hLocate]
  | inaccessible hResolve hAccess =>
    rcases hEvents : e.resolve r env.platform env.workingDirectory with ⟨result, events⟩
    rw [hEvents] at hResolve
    subst hResolve
    simp only [examine, hEvents, checkAccess, verifyAccess, hAccess, and_self]
  | withoutAvisynth hReach hLacks =>
    obtain ⟨hFinding, hLeft⟩ := examine_of_reaches hReach
    rw [hFinding, hLeft]
    exact examineExecutable_eq_of_lacks r _ met hLacks
  | onRecord hReach hLacks hRecord =>
    obtain ⟨hFinding, hLeft⟩ := examine_of_reaches hReach
    rw [hFinding, hLeft]
    exact examineExecutable_eq_of_not_lacks hLacks (probe_of_record hRecord)
  | unprobeable hReach hLacks hNew hFamily =>
    obtain ⟨hFinding, hLeft⟩ := examine_of_reaches hReach
    rw [hFinding, hLeft]
    exact examineExecutable_eq_of_not_lacks hLacks (probe_of_unprobeable hNew hFamily)
  | interrupted hReach hLacks hNew hFamily hReply =>
    obtain ⟨hFinding, hLeft⟩ := examine_of_reaches hReach
    rw [hFinding, hLeft]
    exact examineExecutable_eq_of_not_lacks hLacks
      (probe_of_new hNew hFamily (Descriptor.judge_eq_none_iff.mpr hReply))
  | judged hReach hLacks hNew hFamily hJudge =>
    obtain ⟨hFinding, hLeft⟩ := examine_of_reaches hReach
    rw [hFinding, hLeft]
    exact examineExecutable_eq_of_not_lacks hLacks (probe_of_new hNew hFamily hJudge)

end Environment

end TranscodingEngines
