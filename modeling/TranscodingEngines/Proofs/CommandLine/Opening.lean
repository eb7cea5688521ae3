import TranscodingEngines.CommandLine.Basic
import TranscodingEngines.Proofs.Host.Deadlines
import TranscodingEngines.Proofs.Registry.Builtin

/-!
# Opening the registry

Every command but the one about the configuration file opens a registry of its own. If the
configuration is loaded and none of the calls that are made is interrupted, that is the registry of
all built-in engines under the configuration, and the host afterwards is the one that the calls left
behind. Programs of a system that nobody interrupts answer all calls, unless the machine has been up
for so long that the clock comes to its end.
-/

set_option autoImplicit false

namespace TranscodingEngines

/-! ## Programs that answer -/

namespace Programs

variable {programs : Programs} {h : Host} {limit : Duration} {calls : List Call}

/-- A call that takes the program down is interrupted as far as its runner can tell. -/
theorem takesDown_eq_false (hAnswers : (programs.runner h limit).Answers [] calls) :
    programs.takesDown limit h calls = false := by
  rw [Bool.eq_false_iff]
  intro hDown
  obtain ⟨new, call, later, hSplit, hEnding⟩ := takesDown_iff.mp hDown
  refine hAnswers new call later hSplit ?_
  rw [List.nil_append, runner, hEnding]
  rfl

theorem answers_ofSystem (s : System) {n : Nat}
    (hEarly : h.started.secs + calls.length * (n + 1) ≤ Instant.lastSec) :
    ((ofSystem s false).runner h (.ofSecs n)).Answers [] calls := by
  intro new call later hSplit hInterrupted
  rw [List.nil_append] at hInterrupted
  refine System.not_exhausts_of_lt ?_ (runner_eq_interrupted_iff.mp hInterrupted)
  have hTime := secs_after_le s h n new
  have hLength : new.length + 1 ≤ calls.length := by
    rw [hSplit, List.nil_append, List.length_append, List.length_cons]
    omega
  have hMul := Nat.mul_le_mul_right (n + 1) hLength
  rw [Nat.add_one_mul] at hMul
  omega

/-- Each of the calls leaves alone what a path leads to. -/
def LeavesAlone (programs : Programs) (h : Host) (limit : Duration) (calls : List Call)
    (path : FilePath) : Prop :=
  ∀ new call later, calls = new ++ call :: later →
    (programs (programs.after h limit new) limit call).2.find path
      = (programs.after h limit new).find path

/-- A call whose program cannot be loaded leaves everything alone. -/
theorem leavesAlone_of_not_loaded {s : System} {interrupted : Bool} (path : FilePath)
    (hLoad : ∀ call ∈ calls, (s.load h call).isOk = false) :
    (ofSystem s interrupted).LeavesAlone h limit calls path := by
  have hIdle : ∀ call ∈ calls, (ofSystem s interrupted h limit call).2 = h := by
    intro call hCall
    rw [ofSystem, System.runUnless]
    split
    · rfl
    · have hFailed := hLoad call hCall
      cases hLoaded : s.load h call with
      | error cause => rw [System.run_of_not_loaded hLoaded]
      | ok loaded => rw [hLoaded] at hFailed; cases hFailed
  have hAfter : ∀ new ⊆ calls, (ofSystem s interrupted).after h limit new = h := by
    intro new hNew
    induction new with
    | nil => rfl
    | cons call rest ih =>
      rw [after, List.foldl_cons, hIdle call (hNew List.mem_cons_self)]
      exact ih fun x hx => hNew (List.mem_cons_of_mem call hx)
  intro new call later hSplit
  have hNew : new ⊆ calls := by
    rw [hSplit]
    exact List.subset_append_left _ _
  rw [hAfter new hNew, hIdle call (by rw [hSplit]; simp)]

theorem LeavesAlone.find_after {path : FilePath}
    (hAlone : programs.LeavesAlone h limit calls path) :
    (programs.after h limit calls).find path = h.find path := by
  induction calls generalizing h with
  | nil => rfl
  | cons call rest ih =>
    have hRest : programs.LeavesAlone (programs h limit call).2 limit rest path :=
      fun new x later hSplit => hAlone (call :: new) x later (by rw [hSplit, List.cons_append])
    exact (ih hRest).trans (hAlone [] call rest rfl)

end Programs

namespace CommandLine

/-- The registry that every command opens: the built-in engines under the configuration in a file.
-/
def opened (programs : Programs) (h : Host) (path : FilePath) (c : Config) : Registry :=
  (registered programs (Config.load h path).host c).registry

def callsOf (programs : Programs) (h : Host) (path : FilePath) (c : Config) : List Call :=
  (opened programs h path c).ledger.calls

/-- The host that a command leaves behind, once its probes are done. -/
def hostAfter (programs : Programs) (h : Host) (path : FilePath) (c : Config) : Host :=
  programs.after (Config.load h path).host c.probeTimeout (callsOf programs h path c)

/-- The configuration in a file is loaded, and none of the calls that are made is interrupted. -/
structure Opens (programs : Programs) (h : Host) (asked : Option FilePath) (path : FilePath)
    (c : Config) : Prop where
  path_eq : configPath h asked = .ok path
  loads : (Config.load h path).result = .ok c
  answers : (programs.runner (Config.load h path).host c.probeTimeout).Answers []
    (callsOf programs h path c)

variable {programs : Programs} {h : Host} {asked : Option FilePath} {path : FilePath} {c : Config}

theorem distinct_opened : (opened programs h path c).Distinct :=
  (Registry.run_apply _ _ (.registerBuiltin c.tools)).distinct List.Pairwise.nil

/-- The calls are at most three for each of the twelve engines. -/
theorem length_callsOf_le : (callsOf programs h path c).length ≤ 36 :=
  Registry.length_calls_registerAll _ _ _

/-- On a machine that has been up for less than the time that the clock can name, all programs that
nobody interrupts answer. -/
theorem opens_ofSystem (s : System) (hPath : configPath h asked = .ok path)
    (hLoads : (Config.load h path).result = .ok c)
    (hEarly : (Config.load h path).host.started.secs + 36 * (c.timeoutSecs + 1) ≤ Instant.lastSec) :
    Opens (.ofSystem s false) h asked path c where
  path_eq := hPath
  loads := hLoads
  answers := by
    refine Programs.answers_ofSystem s (Nat.le_trans ?_ hEarly)
    exact Nat.add_le_add_left (Nat.mul_le_mul_right _ length_callsOf_le) _

theorem registered_closes (programs : Programs) (h : Host) (c : Config) :
    let outcome := registered programs h c
    Closes (programs.runner h c.probeTimeout) [] outcome.registry.ledger.calls outcome.result :=
  (Registry.empty c.settings).registerAll_closes (programs.environment h .linux64 c.probeTimeout) _

namespace Opens

theorem result_eq (hOpens : Opens programs h asked path c) :
    (registered programs (Config.load h path).host c).result = .ok () :=
  (registered_closes programs _ c).eq_ok_iff.mpr hOpens.answers

theorem openRegistry_eq (hOpens : Opens programs h asked path c) :
    ∃ events, openRegistry programs h asked
      = ⟨.ok (opened programs h path c), hostAfter programs h path c, events⟩ := by
  have hUp := Programs.takesDown_eq_false hOpens.answers
  rw [callsOf, opened] at hUp
  rw [openRegistry]
  simp only [hOpens.path_eq, hOpens.loads, hOpens.result_eq, hUp]
  exact ⟨_, rfl⟩

theorem onRegistry_eq (hOpens : Opens programs h asked path c) (command : Command)
    (verbosity : Nat) (answer : Registry → Answer) :
    let r := onRegistry programs h ⟨command, asked, verbosity⟩ answer
    let a := answer (opened programs h path c)
    r.exitCode = a.exitCode ∧ r.output = a.output ∧ r.host = hostAfter programs h path c := by
  obtain ⟨events, hOpened⟩ := hOpens.openRegistry_eq
  simp only [onRegistry, hOpened, and_self]

end Opens

end CommandLine

end TranscodingEngines
