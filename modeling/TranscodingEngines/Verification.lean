import TranscodingEngines.Resolution
import TranscodingEngines.Access
import TranscodingEngines.Probe.Basic

/-!
# Verifying an engine

Each declared role of an engine is examined in order. Its path is resolved, an absolute path is
checked, AviSynth is asked for on Windows, and what is left is probed. An examination ends with a
refusal that names no executable, with an executable and its availability, or with an interruption,
which stops the verification of the engine; the roles after the interrupted one are not examined.
-/

set_option autoImplicit false

namespace TranscodingEngines

/-- What verification gets from outside: the platform, the directory that relative paths start from,
the access check, the runner, and the time of day. Programs may change files and take time, so what
the access check, the runner and the clock tell depends on the calls made before, the oldest
first. -/
structure Environment where
  platform : Platform
  workingDirectory : Except SystemError FilePath
  access : List Call → AccessCheck
  runner : Runner
  clock : List Call → LocalTime

inductive Finding where
  | refused (reason : Unavailability)
  | settled (executable : FilePath) (availability : Availability)
  | interrupted (executable : FilePath)

def Engine.record (e : Engine) (r : Role) : Finding → Engine
  | .refused reason => e.setAvailability r (.unavailable reason)
  | .settled executable availability =>
    (e.setResolved r executable).setAvailability r availability
  | .interrupted executable => e.setResolved r executable

namespace Environment

def checkAccess (env : Environment) (earlier : List Call) (e : Engine) (r : Role) :
    Executable → Except Unavailability Unit × List Log.Event
  | .bare _ => (.ok (), [])
  | .absolute path => verifyAccess (env.access earlier) e r path

/-- AviSynth is needed and missing on a platform that could have it. -/
def lacksAvisynth (env : Environment) (e : Engine) : Bool :=
  env.platform.isWindows && e.requiresAvisynth && !env.platform.avisynthInstalled

/-- The finding that a probe leads to. An engine that cannot be probed counts as available. -/
def findingOf (executable : FilePath) : ProbeResult → Finding
  | .verdict v => .settled executable (.ofVerdict v)
  | .noProbe => .settled executable (.available none)
  | .interrupted => .interrupted executable

def examineExecutable (env : Environment) (e : Engine) (r : Role) (executable : FilePath)
    (ledger : ProbeLedger) : Finding × ProbeLedger × List Log.Event :=
  if env.lacksAvisynth e then
    (.settled executable (.unavailable (.avisynthNotFound e.name)), ledger,
      [⟨.debug, "Transcoding engine " ++ e.name ++ " (" ++ r.label
        ++ ") is unavailable since AviSynth couldn't be found"⟩])
  else
    let (result, ledger, events) := probe env.runner env.clock env.platform e r executable ledger
    (findingOf executable result, ledger, events)

def examine (env : Environment) (e : Engine) (r : Role) (ledger : ProbeLedger) :
    Finding × ProbeLedger × List Log.Event :=
  match e.resolve r env.platform env.workingDirectory with
  | (.error reason, events) => (.refused reason, ledger, events)
  | (.ok executable, events) =>
    match env.checkAccess ledger.calls e r executable with
    | (.error reason, more) => (.refused reason, ledger, events ++ more)
    | (.ok (), more) =>
      let (finding, ledger, last) := env.examineExecutable e r executable.path ledger
      (finding, ledger, events ++ more ++ last)

/-- An engine after verification: the engine, the role whose probe was interrupted if one was, the
ledger and the reports. -/
structure Verified where
  engine : Engine
  interruptedAt : Option Role
  ledger : ProbeLedger
  events : List Log.Event

def verifyRoles (env : Environment) : Engine → List Role → ProbeLedger → Verified
  | e, [], ledger => ⟨e, none, ledger, []⟩
  | e, r :: rest, ledger =>
    let (finding, ledger, events) := env.examine e r ledger
    match finding with
    | .interrupted _ => ⟨e.record r finding, some r, ledger, events⟩
    | _ =>
      let later := env.verifyRoles (e.record r finding) rest ledger
      { later with events := events ++ later.events }

def verify (env : Environment) (e : Engine) (ledger : ProbeLedger) : Verified :=
  env.verifyRoles e e.roles ledger

end Environment

end TranscodingEngines
