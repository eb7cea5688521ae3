import TranscodingEngines.Engine.Basic
import TranscodingEngines.Platform
import TranscodingEngines.SystemError
import TranscodingEngines.Log

/-!
# Resolving executables

The configured path of a role resolves to an executable: on Windows a path whose extension is not
that of an executable gets `.exe` behind it, a path that is nothing but a name is left to the search
path, and any other path is made absolute. An engine that needs AviSynth resolves on Windows only.
-/

set_option autoImplicit false

namespace TranscodingEngines

inductive Executable where
  /-- A name that the search path is asked for. -/
  | bare (path : FilePath)
  | absolute (path : FilePath)
  deriving DecidableEq, Repr

def Executable.path : Executable → FilePath
  | bare path => path
  | absolute path => path

def windowsExtensions : List String := ["exe", "com", "bat"]

def FilePath.hasWindowsExtension (p : FilePath) : Bool :=
  match p.extension with
  | some ext => windowsExtensions.any (Text.sameLetters · ext)
  | none => false

def FilePath.completed (p : FilePath) (platform : Platform) : FilePath :=
  if platform.isWindows && !p.hasWindowsExtension then ⟨p.text ++ ".exe"⟩ else p

/-- The path configured for a role, unless it is empty. -/
def Engine.usablePath (e : Engine) (r : Role) : Option FilePath :=
  (e.configured r).filter (!·.isEmpty)

def FilePath.locate (p : FilePath) (workingDirectory : Except SystemError FilePath) :
    Except SystemError Executable :=
  if p.isBare then .ok (.bare p)
  else if p.isAbsolute then .ok (.absolute (FilePath.absolute p p))
  else workingDirectory.map fun base => .absolute (FilePath.absolute base p)

def Engine.resolve (e : Engine) (r : Role) (platform : Platform)
    (workingDirectory : Except SystemError FilePath) :
    Except Unavailability Executable × List Log.Event :=
  match e.usablePath r with
  | none =>
    (.error (.notDefined e.name),
      [⟨.warn, r.label ++ " executable of transcoding engine " ++ e.name ++ " is undefined"⟩])
  | some configured =>
    if e.requiresAvisynth && !platform.isWindows then
      (.error (.platformIncompatible e.name),
        [⟨.debug, "Skipping transcoding engine " ++ e.name ++ " (" ++ r.label
          ++ ") as it's not compatible with this platform"⟩])
    else
      let path := configured.completed platform
      match path.locate workingDirectory with
      | .ok executable => (.ok executable, [])
      | .error cause =>
        (.error (.notFound path e.name),
          [⟨.warn, "Could not make \"" ++ path.text ++ "\" of transcoding engine " ++ e.name ++ " ("
            ++ r.label ++ ") absolute: " ++ cause.message⟩])

end TranscodingEngines
