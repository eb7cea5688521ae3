import TranscodingEngines.FilePath

/-!
# Availability

Each role of an engine is unknown until it has been verified, then available, perhaps with a
version, or unavailable for a reason. The text of a reason is what users are shown.
-/

set_option autoImplicit false

namespace TranscodingEngines

/-- Why a role of an engine cannot be used. -/
inductive Unavailability where
  | notDefined (engine : String)
  | platformIncompatible (engine : String)
  | avisynthNotFound (engine : String)
  | notFound (path : FilePath) (engine : String)
  | noExecutePermission (path : FilePath) (engine : String)
  /-- The probe could not be started or did not finish. -/
  | launchFailed (diagnostic : String)
  | rejected (diagnostic : String)
  deriving DecidableEq, Repr

def Unavailability.message : Unavailability → String
  | notDefined engine => "The executable of transcoding engine " ++ engine ++ " is not defined"
  | platformIncompatible engine =>
    "Transcoding engine " ++ engine ++ " is not compatible with this platform"
  | avisynthNotFound engine =>
    "Transcoding engine " ++ engine ++ " requires AviSynth, which could not be found"
  | notFound path engine =>
    "Executable \"" ++ path.text ++ "\" of transcoding engine " ++ engine ++ " was not found"
  | noExecutePermission path engine =>
    "Insufficient permission to execute \"" ++ path.text ++ "\" for transcoding engine " ++ engine
  | launchFailed diagnostic => diagnostic
  | rejected diagnostic => diagnostic

/-- What a probe found out: the version, if the tool told one, or the reason it cannot be used. -/
abbrev Verdict := Except Unavailability (Option String)

inductive Availability where
  | unknown
  | available (version : Option String)
  | unavailable (reason : Unavailability)
  deriving DecidableEq, Repr

namespace Availability

def isAvailable : Availability → Bool
  | available _ => true
  | _ => false

def version : Availability → Option String
  | available version => version
  | _ => none

def reason : Availability → Option Unavailability
  | unavailable reason => some reason
  | _ => none

def label : Availability → String
  | unknown => "unknown"
  | available _ => "available"
  | unavailable _ => "unavailable"

def ofVerdict : Verdict → Availability
  | .ok version => available version
  | .error reason => unavailable reason

end Availability

end TranscodingEngines
