import TranscodingEngines.Proofs.Probe.Diagnostics
import TranscodingEngines.Proofs.Verification.Course

/-!
# Verification in a steady environment

An environment is steady if the files do not change and the runner answers every call, in a way that
depends on the program and the arguments only. There the executable that a role comes to does not
depend on what was called before, and neither does the answer to its probe. If what is on record
for the executable comes from probes of the same kind, examining the role finds what probing the
executable for it would have found, but for the engine that the text of a failed probe names.
-/

set_option autoImplicit false

namespace TranscodingEngines

namespace Environment

/-- Neither the files nor the answers of the runner change, and no call is interrupted. -/
structure Steady (env : Environment) : Prop where
  access : ∀ calls, env.access calls = env.access []
  answered : ∀ calls call, env.runner calls call ≠ .error .interrupted
  runner : ∀ calls calls' p q args, p.same q = true →
    env.runner calls ⟨p, args⟩ = env.runner calls' ⟨q, args⟩

/-- The executable that a role comes to before anything is called, or the reason why it comes to
none. -/
def reached (env : Environment) (e : Engine) (r : Role) : Except Unavailability Executable :=
  match (e.resolve r env.platform env.workingDirectory).1 with
  | .error reason => .error reason
  | .ok executable =>
    match (env.checkAccess [] e r executable).1 with
    | .error reason => .error reason
    | .ok () => .ok executable

/-- What an executable of the engine is found to be by a probe made for an engine of the name. -/
def prospect (env : Environment) (e : Engine) (name : String) (p : FilePath) : Availability :=
  if env.lacksAvisynth e then .unavailable (.avisynthNotFound e.name)
  else
    match e.family.descriptor? with
    | none => .available none
    | some d =>
      match d.judge name env.platform (env.runner [] ⟨p, d.args⟩) with
      | none => .unknown
      | some verdict => .ofVerdict verdict

/-- What a role is found to be by a probe made for an engine of the name. -/
def outlook (env : Environment) (e : Engine) (r : Role) (name : String) : Finding :=
  match env.reached e r with
  | .error reason => .refused reason
  | .ok executable => .settled executable.path (env.prospect e name executable.path)

/-- The role comes to a probe of the executable by the descriptor. -/
structure Probes (env : Environment) (e : Engine) (r : Role) (p : FilePath) (d : Descriptor) :
    Prop where
  reached : ∃ executable, env.reached e r = .ok executable ∧ executable.path = p
  lacks : env.lacksAvisynth e = false
  family : e.family.descriptor? = some d

variable {env : Environment} {e : Engine} {r : Role} {met left : ProbeLedger} {f : Finding}

/-! ## The executable that a role comes to -/

theorem Reaches.reached_eq {executable : Executable} (h : env.Reaches e r met executable)
    (hSteady : env.Steady) : env.reached e r = .ok executable := by
  rw [reached, h.resolved]
  cases executable with
  | bare path => rfl
  | absolute path =>
    have hAccess := h.accessible path rfl
    rw [hSteady.access] at hAccess
    simp only [checkAccess, verifyAccess, hAccess]

theorem outlook_of_reached {executable : Executable} {name : String}
    (hReached : env.reached e r = .ok executable) : env.outlook e r name
      = .settled executable.path (env.prospect e name executable.path) := by
  rw [outlook, hReached]

theorem executable?_outlook (name : String) : (env.outlook e r name).executable?
    = (env.reached e r).toOption.map Executable.path := by
  rw [outlook]
  cases env.reached e r <;> rfl

theorem declares_of_reached {executable : Executable}
    (hReached : env.reached e r = .ok executable) : e.declares r = true := by
  cases hState : e.executables.get r with
  | some s => rw [Engine.declares, hState, Option.isSome_some]
  | none =>
    have hPath : e.usablePath r = none := by
      rw [Engine.usablePath, Engine.configured, hState]
      rfl
    simp only [reached, Engine.resolve, hPath] at hReached
    cases hReached

/-! ## What a probe finds -/

theorem prospect_of_lacks {name : String} {p : FilePath} (hLacks : env.lacksAvisynth e = true) :
    env.prospect e name p = .unavailable (.avisynthNotFound e.name) := by
  rw [prospect, if_pos hLacks]

theorem prospect_of_unprobeable {name : String} {p : FilePath}
    (hLacks : env.lacksAvisynth e = false) (hFamily : e.family.descriptor? = none) :
    env.prospect e name p = .available none := by
  rw [prospect, if_neg (ne_true_of_eq_false hLacks)]
  simp only [hFamily]

theorem prospect_of_judge {name : String} {p : FilePath} {d : Descriptor} {verdict : Verdict}
    (hLacks : env.lacksAvisynth e = false) (hFamily : e.family.descriptor? = some d)
    (hJudge : d.judge name env.platform (env.runner [] ⟨p, d.args⟩) = some verdict) :
    env.prospect e name p = .ofVerdict verdict := by
  rw [prospect, if_neg (ne_true_of_eq_false hLacks)]
  simp only [hFamily, hJudge]

theorem prospect_alike {names : List String} {n m : String} (hn : n ∈ names) (hm : m ∈ names)
    (p : FilePath) : (env.prospect e n p).Alike names (env.prospect e m p) := by
  rw [prospect, prospect]
  split
  · exact .refl _
  · split
    · exact .refl _
    · rename_i d _
      cases hFirst : d.judge n env.platform (env.runner [] ⟨p, d.args⟩) with
      | none =>
        rw [Descriptor.judge_eq_none_iff.mpr (Descriptor.judge_eq_none_iff.mp hFirst)]
        exact .refl _
      | some verdict =>
        cases hSecond : d.judge m env.platform (env.runner [] ⟨p, d.args⟩) with
        | none =>
          rw [Descriptor.judge_eq_none_iff.mpr (Descriptor.judge_eq_none_iff.mp hSecond)] at hFirst
          cases hFirst
        | some other => exact Descriptor.alike_of_judge hn hm hFirst hSecond

theorem outlook_alike {names : List String} {n m : String} (hn : n ∈ names) (hm : m ∈ names) :
    (env.outlook e r n).availability.Alike names (env.outlook e r m).availability := by
  rw [outlook, outlook]
  cases env.reached e r with
  | error reason => exact .refl _
  | ok executable => exact env.prospect_alike hn hm executable.path

/-! ## Examinations -/

/-- What examining a role can find in a steady environment, and the ledger that it leaves. -/
inductive Concludes (env : Environment) (e : Engine) (r : Role) (met : ProbeLedger) :
    Finding → ProbeLedger → Prop
  | refused {reason : Unavailability} (hReached : env.reached e r = .error reason) :
      Concludes env e r met (.refused reason) met
  | withoutAvisynth {executable : Executable} (hReached : env.reached e r = .ok executable)
      (hLacks : env.lacksAvisynth e = true) :
      Concludes env e r met
        (.settled executable.path (.unavailable (.avisynthNotFound e.name))) met
  | onRecord {executable : Executable} {record : ProbeRecord}
      (hReached : env.reached e r = .ok executable) (hLacks : env.lacksAvisynth e = false)
      (hRecord : met.cache.get? executable.path = some record) :
      Concludes env e r met (.settled executable.path (.ofVerdict record.verdict)) met
  | unprobeable {executable : Executable} (hReached : env.reached e r = .ok executable)
      (hLacks : env.lacksAvisynth e = false) (hFamily : e.family.descriptor? = none) :
      Concludes env e r met (.settled executable.path (.available none)) met
  | judged {executable : Executable} {d : Descriptor} {verdict : Verdict}
      (hReached : env.reached e r = .ok executable) (hLacks : env.lacksAvisynth e = false)
      (hNew : met.cache.get? executable.path = none) (hFamily : e.family.descriptor? = some d)
      (hJudge : ∀ calls, d.judge e.name env.platform
        (env.runner calls ⟨executable.path, d.args⟩) = some verdict) :
      Concludes env e r met (.settled executable.path (.ofVerdict verdict))
        (met.after (env.exchange e met ⟨executable.path, d.args⟩))

/-- In a steady environment a role is refused for the same reason, or comes to the same executable,
whatever was called before, and no probe is interrupted. -/
theorem Examined.concludes (h : Examined env e r met f left) (hSteady : env.Steady) :
    Concludes env e r met f left := by
  cases h with
  | undefined hPath =>
    refine .refused ?_
    simp only [reached, Engine.resolve, hPath]
  | incompatible hPath hNeeds hPlatform =>
    refine .refused ?_
    simp [reached, Engine.resolve, hPath, hNeeds, hPlatform]
  | unlocatable hPath hSuits hLocate =>
    refine .refused ?_
    simp [reached, Engine.resolve, hPath, hSuits, hLocate]
  | inaccessible hResolve hAccess =>
    refine .refused ?_
    rw [hSteady.access] at hAccess
    simp only [reached, hResolve, checkAccess, verifyAccess, hAccess]
  | withoutAvisynth hReach hLacks => exact .withoutAvisynth (hReach.reached_eq hSteady) hLacks
  | onRecord hReach hLacks hRecord => exact .onRecord (hReach.reached_eq hSteady) hLacks hRecord
  | unprobeable hReach hLacks _ hFamily =>
    exact .unprobeable (hReach.reached_eq hSteady) hLacks hFamily
  | interrupted _ _ _ _ hReply => exact absurd hReply (hSteady.answered _ _)
  | judged hReach hLacks hNew hFamily hJudge =>
    refine .judged (hReach.reached_eq hSteady) hLacks hNew hFamily ?_
    intro calls
    rw [hSteady.runner calls met.calls _ _ _ (FilePath.same_self _)]
    exact hJudge

namespace Concludes

variable (h : Concludes env e r met f left)

include h

theorem executable?_eq : f.executable? = (env.reached e r).toOption.map Executable.path := by
  cases h with
  | refused hReached => rw [hReached]; rfl
  | withoutAvisynth hReached => rw [hReached]; rfl
  | onRecord hReached => rw [hReached]; rfl
  | unprobeable hReached => rw [hReached]; rfl
  | judged hReached => rw [hReached]; rfl

theorem isInterrupted_eq_false : f.isInterrupted = false := by
  cases h <;> rfl

/-- A call that an examination makes is the probe of the executable that the role comes to. -/
theorem probes {x : Exchange}
    (hx : x ∈ (left.calls.drop met.calls.length).map (env.exchange e met)) :
    ∃ p d, x = env.exchange e met ⟨p, d.args⟩ ∧ env.Probes e r p d := by
  have hNone : x ∉ (met.calls.drop met.calls.length).map (env.exchange e met) := by
    rw [List.drop_length, List.map_nil]
    exact List.not_mem_nil
  cases h with
  | judged hReached hLacks _ hFamily _ =>
    rw [ProbeLedger.calls_after, List.drop_left, List.map_singleton] at hx
    exact ⟨_, _, List.mem_singleton.mp hx, ⟨_, hReached, rfl⟩, hLacks, hFamily⟩
  | _ => exact absurd hx hNone

/-- A role that comes to a probe of an executable leaves it on record. -/
theorem exists_record {p : FilePath} {d : Descriptor} (hProbes : env.Probes e r p d) :
    ∃ record, left.cache.get? p = some record := by
  obtain ⟨⟨executable, hCome, rfl⟩, hHas, hProbeable⟩ := hProbes
  cases h with
  | refused hReached =>
    rw [hCome] at hReached
    cases hReached
  | withoutAvisynth _ hLacks =>
    rw [hHas] at hLacks
    cases hLacks
  | onRecord hReached _ hRecord =>
    obtain rfl := Except.ok.inj (hCome.symm.trans hReached)
    exact ⟨_, hRecord⟩
  | unprobeable _ _ hFamily =>
    rw [hProbeable] at hFamily
    cases hFamily
  | judged hReached _ hNew hFamily hJudge =>
    obtain rfl := Except.ok.inj (hCome.symm.trans hReached)
    exact ⟨_, get?_after_exchange hFamily hNew (hJudge met.calls)⟩

/-- If the record that the role meets is what a probe made for one of the named engines yields for
its executable, then the role is found to be what such a probe finds. -/
theorem exists_outlook {names : List String} (hName : e.name ∈ names)
    (hMet : ∀ executable record, env.reached e r = .ok executable →
      met.cache.get? executable.path = some record →
      ∃ n ∈ names, ∃ d, e.family.descriptor? = some d ∧
        d.judge n env.platform (env.runner [] ⟨executable.path, d.args⟩) = some record.verdict) :
    ∃ n ∈ names, f = env.outlook e r n := by
  cases h with
  | refused hReached =>
    refine ⟨e.name, hName, ?_⟩
    rw [outlook, hReached]
  | withoutAvisynth hReached hLacks =>
    refine ⟨e.name, hName, ?_⟩
    rw [outlook_of_reached hReached, prospect_of_lacks hLacks]
  | onRecord hReached hLacks hRecord =>
    obtain ⟨n, hn, d, hFamily, hJudge⟩ := hMet _ _ hReached hRecord
    refine ⟨n, hn, ?_⟩
    rw [outlook_of_reached hReached, prospect_of_judge hLacks hFamily hJudge]
  | unprobeable hReached hLacks hFamily =>
    refine ⟨e.name, hName, ?_⟩
    rw [outlook_of_reached hReached, prospect_of_unprobeable hLacks hFamily]
  | judged hReached hLacks _ hFamily hJudge =>
    refine ⟨e.name, hName, ?_⟩
    rw [outlook_of_reached hReached, prospect_of_judge hLacks hFamily (hJudge [])]

end Concludes

end Environment

end TranscodingEngines
