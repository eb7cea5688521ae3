import TranscodingEngines.Engine.Basic
import TranscodingEngines.SystemError
import TranscodingEngines.Log

/-!
# Presence and permission

Before an executable at an absolute path is probed, the path has to lead to a regular file that the
caller may execute. Whoever verifies engines is given the check as a function; a failed check
becomes a reason of unavailability, where everything but absence counts as missing permission.
-/

set_option autoImplicit false

namespace TranscodingEngines

inductive AccessFailure where
  | notFound
  /-- It is no regular file, or the caller may not execute it. -/
  | notExecutable
  | system (cause : SystemError)
  deriving DecidableEq, Repr

def AccessFailure.message : AccessFailure → String
  | notFound => "File not found"
  | notExecutable => "File is not executable"
  | system cause => cause.message

abbrev AccessCheck := FilePath → Except AccessFailure Unit

def AccessFailure.reason (failure : AccessFailure) (engine : String) (path : FilePath) :
    Unavailability :=
  match failure with
  | notFound => .notFound path engine
  | _ => .noExecutePermission path engine

def AccessFailure.event (failure : AccessFailure) (engine : String) (role : Role)
    (path : FilePath) : Log.Event :=
  match failure with
  | notFound =>
    ⟨.warn, role.label ++ " executable \"" ++ path.text ++ "\" of transcoding engine " ++ engine
      ++ " not found"⟩
  | other =>
    ⟨.warn, "Insufficient permission to execute \"" ++ path.text ++ "\" for transcoding engine "
      ++ engine ++ " (" ++ role.label ++ "): " ++ other.message⟩

def verifyAccess (check : AccessCheck) (engine : Engine) (role : Role) (path : FilePath) :
    Except Unavailability Unit × List Log.Event :=
  match check path with
  | .ok () => (.ok (), [])
  | .error failure =>
    (.error (failure.reason engine.name path), [failure.event engine.name role path])

end TranscodingEngines
