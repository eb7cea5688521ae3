import TranscodingEngines.Host.Script.Launch
import TranscodingEngines.Proofs.CommandLine.Opening
import TranscodingEngines.Proofs.Config.Backups

/-!
# Time limits that the clock cannot follow

Every number of seconds up to the last one that the clock can name may be configured as the time
limit of probes, and the moment at which a program is started is added to it. So a limit at the end
of that range takes the program down with the first probe, unless the machine was started within
the last second. All other limits are harmless: a registration comes to its end if at each of its
calls the sum stays below the last second. This holds whatever system the programs are started by.

A run that takes the program down is an interrupted one to the registry. Nothing comes to light of
what the registry makes of it: no further call is made, and no command asks the registry.
-/

set_option autoImplicit false

namespace TranscodingEngines

/-! ## Registrations on a host -/

/-- How registering engines fares with the programs of a system that nobody interrupts. It comes to
its end if the clock can time each of the calls beyond the earlier ones, and breaks off at the first
that it cannot time. -/
inductive Registers (s : System) (h : Host) (limit : Duration) (earlier calls : List Call) :
    Except RegistryError Unit → Prop
  | finished (hTimed : ∀ new call later, calls = earlier ++ new ++ call :: later →
        ¬ s.Exhausts ((Programs.ofSystem s false).after h limit (earlier ++ new)) limit none call) :
      Registers s h limit earlier calls (.ok ())
  | broken {new : List Call} {call : Call} {name : String}
      (hCalls : calls = earlier ++ new ++ [call])
      (hExhausts : s.Exhausts ((Programs.ofSystem s false).after h limit (earlier ++ new)) limit
        none call) :
      Registers s h limit earlier calls (.error (.interrupted name))

section Registers

variable {s : System} {h : Host} {limit : Duration} {earlier calls : List Call}
  {result : Except RegistryError Unit}

theorem Closes.registers
    (hCloses : Closes ((Programs.ofSystem s false).runner h limit) earlier calls result) :
    Registers s h limit earlier calls result := by
  cases hCloses with
  | finished hAnswers =>
    exact .finished fun new call later hCalls hExhausts =>
      hAnswers new call later hCalls (Programs.runner_eq_interrupted_iff.mpr hExhausts)
  | broken hCalls hReply => exact .broken hCalls (Programs.runner_eq_interrupted_iff.mp hReply)

namespace Registers

/-- A registration comes to its end if the clock is early enough at each call. -/
theorem eq_ok {n : Nat} (hRegisters : Registers s h (.ofSecs n) earlier calls result)
    (hEarly : ∀ new call later, calls = earlier ++ new ++ call :: later →
      ((Programs.ofSystem s false).after h (.ofSecs n) (earlier ++ new)).started.secs + n
        < Instant.lastSec) : result = .ok () := by
  cases hRegisters with
  | finished => rfl
  | broken hCalls hExhausts =>
    exact absurd hExhausts (System.not_exhausts_of_lt (hEarly _ _ _ hCalls))

theorem takesDown_iff (hRegisters : Registers s h limit [] calls result) :
    (Programs.ofSystem s false).takesDown limit h calls = true ↔ result ≠ .ok () := by
  cases hRegisters with
  | finished hTimed =>
    refine iff_of_false (fun hDown => ?_) fun hFailed => hFailed rfl
    obtain ⟨new, call, later, hCalls, hEnding⟩ := Programs.takesDown_iff.mp hDown
    exact hTimed new call later hCalls (System.run_eq_clockExhausted_iff.mp hEnding)
  | @broken new call name hCalls hExhausts =>
    refine iff_of_true ?_ (by simp)
    exact Programs.takesDown_iff.mpr
      ⟨new, call, [], hCalls, System.run_eq_clockExhausted_iff.mpr hExhausts⟩

end Registers

theorem Registry.register_registers (g : Registry) (s : System) (h : Host) (platform : Platform)
    (limit : Duration) (e : Engine) :
    let outcome := g.register ((Programs.ofSystem s false).environment h platform limit) e
    Registers s h limit g.ledger.calls outcome.registry.ledger.calls outcome.result :=
  Closes.registers (g.register_closes ((Programs.ofSystem s false).environment h platform limit) e)

end Registers

namespace CommandLine

/-! ## The commands -/

section Commands

variable {h : Host} {asked : Option FilePath} {path : FilePath} {c : Config}

theorem registered_registers (s : System) (h : Host) (c : Config) :
    let outcome := registered (.ofSystem s false) h c
    Registers s h c.probeTimeout [] outcome.registry.ledger.calls outcome.result :=
  (registered_closes (.ofSystem s false) h c).registers

/-- If a call takes the program down, a command ends so, whatever it was to ask the registry. -/
theorem onRegistry_of_takesDown {programs : Programs} (hPath : configPath h asked = .ok path)
    (hLoads : (Config.load h path).result = .ok c)
    (hDown : programs.takesDown c.probeTimeout (Config.load h path).host
      (registered programs (Config.load h path).host c).registry.ledger.calls = true)
    (command : Command) (verbosity : Nat) (answer other : Registry → Answer) :
    let r := onRegistry programs h ⟨command, asked, verbosity⟩ answer
    r.exitCode = 101 ∧ r.output = [] ∧
      onRegistry programs h ⟨command, asked, verbosity⟩ other = r := by
  simp only [onRegistry, openRegistry, hPath, hLoads, hDown, if_true, takenDown, and_self]

theorem exists_answer (programs : Programs) (h : Host) (asked : Option FilePath) (verbosity : Nat)
    {command : Command} (hCommand : command ≠ .initConfig) :
    ∃ answer : Registry → Answer, (∀ g, (answer g).exitCode ≤ 1) ∧
      carryOut programs h ⟨command, asked, verbosity⟩
        = onRegistry programs h ⟨command, asked, verbosity⟩ answer := by
  cases command with
  | initConfig => exact absurd rfl hCommand
  | list all json => exact ⟨answerList all json, fun _ => Nat.zero_le _, rfl⟩
  | cache => exact ⟨answerCache, fun _ => Nat.zero_le _, rfl⟩
  | check id =>
    refine ⟨answerCheck id, fun g => ?_, rfl⟩
    rw [answerCheck]
    split
    · exact Nat.le_refl _
    · split <;> simp
  | matchResource location all =>
    refine ⟨answerMatch location all, fun g => ?_, rfl⟩
    rw [answerMatch]
    generalize (if all then g.enginesFor _ else g.engineFor _) = search
    split <;> simp

/-- A command that needs the registry is taken down if the registration does not come to its end. -/
theorem carryOut_of_loads (s : System) {command : Command} (hCommand : command ≠ .initConfig)
    (hPath : configPath h asked = .ok path) (hLoads : (Config.load h path).result = .ok c)
    (verbosity : Nat) :
    let outcome := registered (.ofSystem s false) (Config.load h path).host c
    let r := carryOut (.ofSystem s false) h ⟨command, asked, verbosity⟩
    (r.exitCode = 101 ↔ outcome.result ≠ .ok ()) ∧
      (outcome.result ≠ .ok () → r.output = [] ∧ ∀ answer,
        onRegistry (.ofSystem s false) h ⟨command, asked, verbosity⟩ answer = r) := by
  intro outcome r
  have hDown := (registered_registers s (Config.load h path).host c).takesDown_iff
  obtain ⟨answer, hCode, hr⟩ := exists_answer (.ofSystem s false) h asked verbosity hCommand
  by_cases hResult : outcome.result = .ok ()
  · have hOpens : Opens (.ofSystem s false) h asked path c :=
      ⟨hPath, hLoads, (registered_closes _ _ c).eq_ok_iff.mp hResult⟩
    obtain ⟨hExit, _⟩ := hOpens.onRegistry_eq command verbosity answer
    rw [← hr] at hExit
    refine ⟨iff_of_false (fun hExhausted => ?_) fun hFailed => hFailed hResult, fun hFailed =>
      absurd hResult hFailed⟩
    have hFavourable := hCode (opened (.ofSystem s false) h path c)
    change r.exitCode = _ at hExit
    omega
  · obtain ⟨hExit, hOutput, _⟩ :=
      onRegistry_of_takesDown hPath hLoads (hDown.mpr hResult) command verbosity answer answer
    rw [← hr] at hExit hOutput
    refine ⟨iff_of_true hExit hResult, fun _ => ⟨hOutput, fun other => ?_⟩⟩
    obtain ⟨_, _, hSame⟩ :=
      onRegistry_of_takesDown hPath hLoads (hDown.mpr hResult) command verbosity answer other
    exact hSame.trans hr.symm

end Commands

/-- What a time limit of so many seconds means for the runs, for the registrations and for the
commands of a host whose steady clock shows any moment and whose programs are started by a system. -/
structure Limits (s : System) (c : Config) : Prop where
  deadline : ∀ start : Instant, start.after? c.probeTimeout = none ↔
    Instant.lastSec < start.secs + c.timeoutSecs
  /-- Below the last second the collecting of output can be timed as well. -/
  grace : ∀ (h : Host) during loaded ending look,
    s.Ends h c.probeTimeout during loaded ending look →
    h.started.secs + c.timeoutSecs < Instant.lastSec → (h.timeOf look).after? drainGrace ≠ none
  /-- A run ends in one of the four ways, or takes the program down. -/
  run : ∀ (h : Host) during call,
    let ending := (s.runUnless h c.probeTimeout false during call).1
    (s.Exhausts h c.probeTimeout during call ∧ ending = .error .clockExhausted) ∨
      (¬ s.Exhausts h c.probeTimeout during call ∧ s.Fares h c.probeTimeout during call ending)
  run_interrupted : ∀ (h : Host) during call,
    (s.runUnless h c.probeTimeout true during call).1 = .error (.failed .interrupted)
  exhausts : ∀ (h : Host) during call, h.started.secs + c.timeoutSecs ≠ Instant.lastSec →
    (s.Exhausts h c.probeTimeout during call ↔
      (∃ loaded, s.load h call = .ok loaded) ∧
        Instant.lastSec < h.started.secs + c.timeoutSecs)
  register : ∀ (g : Registry) (h : Host) platform e,
    let outcome := g.register ((Programs.ofSystem s false).environment h platform c.probeTimeout) e
    Registers s h c.probeTimeout g.ledger.calls outcome.registry.ledger.calls outcome.result
  /-- A registration comes to its end if each of its calls is made before the clock is too late. -/
  register_early : ∀ (g : Registry) (h : Host) platform e,
    let outcome := g.register ((Programs.ofSystem s false).environment h platform c.probeTimeout) e
    (∀ new call later,
      outcome.registry.ledger.calls = g.ledger.calls ++ new ++ call :: later →
      ((Programs.ofSystem s false).after h c.probeTimeout (g.ledger.calls ++ new)).started.secs
        + c.timeoutSecs < Instant.lastSec) → outcome.result = .ok ()
  /-- A command is taken down with the registration of the built-in engines, prints nothing, and
  asks the registry nothing. -/
  command : ∀ h asked path command verbosity, command ≠ .initConfig →
    configPath h asked = .ok path → (Config.load h path).result = .ok c →
    let outcome := registered (.ofSystem s false) (Config.load h path).host c
    let r := carryOut (.ofSystem s false) h ⟨command, asked, verbosity⟩
    Registers s (Config.load h path).host c.probeTimeout [] outcome.registry.ledger.calls
        outcome.result ∧
      (r.exitCode = 101 ↔ outcome.result ≠ .ok ()) ∧
      (outcome.result ≠ .ok () → r.output = [] ∧ ∀ answer,
        onRegistry (.ofSystem s false) h ⟨command, asked, verbosity⟩ answer = r)

/-- Every time limit that is read from a configuration is one of the seconds that the clock can
name. A run crashes exactly if a program is started so late that the clock cannot name the end of
its time, or at its last second ends too late for its output; every other run ends in one of the
four ways, and registrations and commands break off only there. -/
theorem limits_of_parse {text : String} {c : Config} (hParse : Config.parse text = .ok c) :
    c.timeoutSecs ≤ Instant.lastSec ∧ ∀ s : System, Limits s c := by
  refine ⟨Config.timeoutSecs_le_of_parse hParse, fun s => ?_⟩
  constructor
  · intro start
    rw [Config.probeTimeout, Instant.after?_eq_none_iff, Instant.secs_later_ofSecs]
  · intro h during loaded ending look hEnds hEarly hNone
    rw [Instant.after?_eq_none_iff] at hNone
    have hGrace := h.secs_grace_le hEnds.look_le
    omega
  · exact fun h during call => s.run_cases h c.probeTimeout during call
  · exact fun h during call => rfl
  · exact fun h during call hOther => System.exhausts_ofSecs_iff hOther
  · exact fun g h platform e => g.register_registers s h platform c.probeTimeout e
  · intro g h platform e outcome hEarly
    exact (g.register_registers s h platform c.probeTimeout e).eq_ok hEarly
  · intro h asked path command verbosity hCommand hPath hLoads
    exact ⟨registered_registers s _ c, carryOut_of_loads s hCommand hPath hLoads verbosity⟩

/-- The limit that is configured unless another one is leaves every program on a machine that has
been up for less than three hundred years in one of the four ways. -/
theorem limits_of_parse_default :
    Config.parse Config.default.encode = .ok .default ∧
    ∀ (s : System) (h : Host) during call, h.started.secs < 9000000000 →
      s.Fares h Config.default.probeTimeout during call
        (s.runUnless h Config.default.probeTimeout false during call).1 := by
  have hParse : Config.parse Config.default.encode = .ok .default :=
    Config.parse_encode (by decide)
  refine ⟨hParse, fun s h during call hUp => ?_⟩
  obtain ⟨_, hLimits⟩ := limits_of_parse hParse
  have hSecs : Config.default.timeoutSecs = 10 := rfl
  have hLast : Instant.lastSec = 9223372036854775807 := rfl
  rcases (hLimits s).run h during call with ⟨hExhausts, _⟩ | ⟨_, hFares⟩
  · obtain ⟨_, hLate⟩ := ((hLimits s).exhausts h during call (by omega)).mp hExhausts
    omega
  · exact hFares

/-- A configuration that grants probes as many seconds as the clock can name. -/
def patient : Config := { Config.default with timeoutSecs := Instant.lastSec }

/-- From its second second on, no machine can time the limit of the patient configuration. -/
theorem exhausts_patient {s : System} {h : Host} {call : Call} {loaded : s.Loaded}
    (during : Option Nat) (hUp : 0 < h.started.secs) (hLoad : s.load h call = .ok loaded) :
    s.Exhausts h patient.probeTimeout during call :=
  System.exhausts_of_lt hLoad (Nat.lt_add_of_pos_left hUp)

/-- A machine that was started a second ago, with a program in the root and the patient
configuration beside it. -/
def awake : Host where
  files := ⟨[(["ffmpeg"], .program ⟨0, 0, 0o755⟩ .true),
    (["c.toml"], .file ⟨0, 0, 0o644⟩ (Text.bytes patient.encode))]⟩
  caller := ⟨0, [0]⟩
  directory := []
  home := none
  searchPath := [⟨""⟩]
  clock := ⟨2024, 5, 17, 9, 30, 0⟩
  started := ⟨1000000000⟩
  journal := []

theorem load_awake : awake.load "ffmpeg" ["-version"] = .ok ⟨.true, "ffmpeg", ["-version"]⟩ := by
  have hName : Config.CanName "ffmpeg" :=
    ⟨⟨by decide, by decide, by decide⟩, by decide, by decide +kernel⟩
  have hEntry : awake.files.get? ["ffmpeg"] = some (.program ⟨0, 0, 0o755⟩ .true) := rfl
  have hFind : awake.find ⟨"ffmpeg"⟩ = .ok (["ffmpeg"], .program ⟨0, 0, 0o755⟩ .true) := by
    rw [Host.find_eq_ok_iff, Config.follow_in_root rfl rfl hName (by simp [hEntry]), hEntry]
  have hAt : awake.loadAt ⟨"ffmpeg"⟩ ["-version"] = .ok ⟨.true, "ffmpeg", ["-version"]⟩ := by
    rw [Host.loadAt, Host.loadWithin, hFind]
    rfl
  have hCandidates : awake.candidates "ffmpeg" = [⟨"ffmpeg"⟩] := rfl
  rw [Host.load, if_neg (by decide), if_neg (by decide), if_neg (by decide),
    if_neg (by decide +kernel), hCandidates, Host.loadFirst, hAt]
  rfl

/-- The first built-in engine for the machine has an installed executable alone. -/
theorem registered_awake : (registered (.ofSystem Script.system false) awake patient).result
    = .error (.interrupted "FFmpeg Audio") := by
  let env := (Programs.ofSystem Script.system false).environment awake .linux64 patient.probeTimeout
  let g := Registry.empty patient.settings
  let e := Catalog.engine Config.defaultTools .linux64
    ⟨"FFmpegAudio", "FFmpeg Audio", .ffmpeg, .audioFile, false⟩
  have hReply : env.runner [] ⟨⟨"ffmpeg"⟩, ["-version"]⟩ = .error .interrupted :=
    Programs.runner_eq_interrupted_iff.mpr (exhausts_patient none (by decide) load_awake)
  have hFirst : env.InterruptedFirst e g.ledger [.bundled] .installed [.custom] := by
    refine ⟨rfl, ⟨?_, trivial⟩, ?_⟩
    · rintro ⟨executable, d, hReach, _⟩
      have hUndefined : (e.resolve .bundled env.platform env.workingDirectory).1
          = .error (.notDefined e.name) := rfl
      cases hUndefined.symm.trans hReach.resolved
    · have hResolved : (e.resolve .installed env.platform env.workingDirectory).1
          = .ok (.bare ⟨"ffmpeg"⟩) := by
        have hPath : e.usablePath .installed = some ⟨"ffmpeg"⟩ := by decide +kernel
        have hBare : FilePath.isBare ⟨"ffmpeg"⟩ = true := by decide +kernel
        have hCompleted : FilePath.completed ⟨"ffmpeg"⟩ env.platform = ⟨"ffmpeg"⟩ := rfl
        rw [Engine.resolve, hPath]
        simp only [hCompleted, FilePath.locate, hBare, if_true]
        rfl
      refine ⟨.bare ⟨"ffmpeg"⟩, _, ⟨hResolved, ?_⟩, rfl, rfl, rfl, hReply⟩
      rintro _ ⟨⟩
  have hResult : (g.register env e).result = .error (.interrupted e.name) := by
    rw [(Registry.register_of_new env rfl).1,
      Admission.interruptedAt_of_interruptedFirst (a := ⟨g, env, e⟩) hFirst]
    rfl
  obtain ⟨rest, hEngines⟩ : ∃ rest, Catalog.engines patient.tools env.platform = e :: rest :=
    ⟨_, rfl⟩
  change (g.registerAll env (Catalog.engines patient.tools env.platform)).result = _
  rw [hEngines, Registry.registerAll]
  simp only [hResult]
  rfl

/-- The time limit is accepted, the first probe cannot be timed, and the command is taken down. -/
theorem awake_takenDown :
    let r := run (.ofSystem Script.system false) awake ["--config", "c.toml", "list"]
    awake.readText ⟨"c.toml"⟩ = .ok patient.encode ∧
    Config.parse patient.encode = .ok patient ∧ patient.timeoutSecs ≤ Instant.lastSec ∧
    awake.started.secs = 1 ∧
    (Script.system.run awake patient.probeTimeout none ⟨⟨"ffmpeg"⟩, ["-version"]⟩).1 = .error .clockExhausted ∧
    r.exitCode = 101 ∧ r.output = [] := by
  intro r
  have hParse : Config.parse patient.encode = .ok patient := Config.parse_encode (by decide)
  have hFile : awake.files.get? ["c.toml"]
      = some (.file ⟨0, 0, 0o644⟩ (Text.bytes patient.encode)) := rfl
  have hText : awake.readText ⟨"c.toml"⟩ = .ok patient.encode :=
    Config.readText_in_root rfl rfl Config.canName_config hFile
  have hExhausts : Script.system.Exhausts awake patient.probeTimeout none
      ⟨⟨"ffmpeg"⟩, ["-version"]⟩ := exhausts_patient none (by decide) load_awake
  have hExists : awake.pathExists ⟨"c.toml"⟩ = true := by
    rw [Host.pathExists, Config.find_in_root rfl rfl Config.canName_config hFile]
    rfl
  have hLoads : Config.load awake ⟨"c.toml"⟩ = ⟨.ok patient, awake, []⟩ :=
    Config.load_of_readText (by decide) hExists hText
  have hFailed : (registered (.ofSystem Script.system false) awake patient).result ≠ .ok () := by
    rw [registered_awake]
    simp
  have hr : r = carryOut (.ofSystem Script.system false) awake ⟨.list false false, some ⟨"c.toml"⟩, 0⟩ := by
    have hArguments : readArguments ["--config", "c.toml", "list"]
        = .ok ⟨.list false false, some ⟨"c.toml"⟩, 0⟩ := by decide +kernel
    simp only [r, run, hArguments]
  have hPath : configPath awake (some ⟨"c.toml"⟩) = .ok ⟨"c.toml"⟩ := rfl
  have hCommand : Command.list false false ≠ .initConfig := by decide
  have hCarried := carryOut_of_loads Script.system hCommand hPath (by rw [hLoads]) 0
  rw [hLoads] at hCarried
  rw [hr]
  exact ⟨hText, hParse, by decide, by decide, System.run_eq_clockExhausted_iff.mpr hExhausts,
    hCarried.1.mpr hFailed, (hCarried.2 hFailed).1⟩

end CommandLine

end TranscodingEngines
