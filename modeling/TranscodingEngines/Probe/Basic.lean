import TranscodingEngines.Engine.Basic
import TranscodingEngines.Log
import TranscodingEngines.Probe.Descriptor
import TranscodingEngines.Probe.Cache

/-!
# Probing an executable

A probe looks into the cache first. Without a record it runs the executable as the family's
descriptor says, judges the answer and keeps the verdict. An interrupted run gives no verdict and
leaves no record. Nothing is found out about an executable that is in no record and belongs to a
family without a descriptor.
-/

set_option autoImplicit false

namespace TranscodingEngines

/-- What probing has done so far: the records kept and the calls made, the oldest first. -/
structure ProbeLedger where
  cache : ProbeCache
  calls : List Call

namespace ProbeLedger

def empty : ProbeLedger := ⟨∅, []⟩

def called (l : ProbeLedger) (call : Call) : ProbeLedger := { l with calls := l.calls ++ [call] }

def keep (l : ProbeLedger) (executable : FilePath) (verdict : Verdict) (moment : LocalTime) :
    ProbeLedger :=
  { l with cache := l.cache.insertIfNew ⟨executable, verdict, moment⟩ }

end ProbeLedger

inductive ProbeResult where
  | verdict (v : Verdict)
  | noProbe
  | interrupted

def probeInterrupted : String := "Probe interrupted"

/-- The verdict on a run of an executable for an engine; none if the run was interrupted. -/
def Descriptor.judge (d : Descriptor) (engine : String) (platform : Platform) :
    Reply → Option Verdict
  | .ok output => some (d.evaluate engine output platform)
  | .error .interrupted => none
  | .error failure => some (.error (.launchFailed (withDetail engine failure.message)))

def runEvents (call : Call) (role : Role) : Reply → List Log.Event
  | .ok output =>
    if output.isComplete then []
    else
      [⟨.debug, "Output of \"" ++ call.program.text ++ "\" still open after exit, keeping "
        ++ toString output.lines.length ++ " lines"⟩]
  | .error .interrupted => []
  | .error failure =>
    [⟨.debug, "\"" ++ call.program.text ++ " " ++ " ".intercalate call.args ++ "\" ("
      ++ role.label ++ ") failed with error: " ++ failure.message⟩]

/-- Probes an executable for a role of an engine. The record of a verdict tells the time after the
call. -/
def probe (runner : Runner) (clock : List Call → LocalTime) (platform : Platform) (engine : Engine)
    (role : Role) (executable : FilePath) (ledger : ProbeLedger) :
    ProbeResult × ProbeLedger × List Log.Event :=
  match ledger.cache.get? executable with
  | some record =>
    (.verdict record.verdict, ledger,
      [⟨.debug, "Reusing probe result of \"" ++ executable.text ++ "\" for transcoding engine "
        ++ engine.name ++ " (" ++ role.label ++ ")"⟩])
  | none =>
    match engine.family.descriptor? with
    | none => (.noProbe, ledger, [])
    | some d =>
      let call : Call := ⟨executable, d.args⟩
      let reply := runner ledger.calls call
      let events := runEvents call role reply
      let ledger := ledger.called call
      match d.judge engine.name platform reply with
      | none => (.interrupted, ledger, events)
      | some verdict =>
        (.verdict verdict, ledger.keep executable verdict (clock ledger.calls), events)

end TranscodingEngines
