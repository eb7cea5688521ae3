import TranscodingEngines.FilePath
import TranscodingEngines.Duration

/-!
# Running tools

A run hands a program its arguments and comes back with an exit code and the lines it printed, or
with the reason why there is no such result. Whoever verifies engines is given a runner: it answers
a call, and its answer may depend on the calls made before, so the same call may fare differently
the second time.
-/

set_option autoImplicit false

namespace TranscodingEngines

structure Call where
  program : FilePath
  args : List String
  deriving DecidableEq, Repr

/-- What a finished run leaves: the exit code, and the lines of standard output followed by those of
standard error. The exit code of a run ended by a signal is -1. -/
structure Output where
  exitCode : Int
  lines : List String
  /-- Both streams were closed before the time for collecting lines was up. -/
  isComplete : Bool := true
  deriving DecidableEq, Repr

inductive RunFailure where
  | launch (cause : String)
  | timedOut (limit : Duration)
  | interrupted
  deriving DecidableEq, Repr

def RunFailure.message : RunFailure → String
  | launch cause => cause
  | timedOut limit => "Process did not finish within " ++ limit.text
  | interrupted => "Process was interrupted"

abbrev Reply := Except RunFailure Output

/-- Answers a call, given the calls made before it, the oldest first. -/
abbrev Runner := List Call → Call → Reply

end TranscodingEngines
