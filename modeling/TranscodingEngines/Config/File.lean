import TranscodingEngines.Config.Decoding
import TranscodingEngines.Config.Encoding
import TranscodingEngines.Host.Basic
import TranscodingEngines.Log

/-!
# The file of the configuration

The configuration is loaded from a file; if there is none, the default one is used and an attempt is
made to write it there. Resetting puts a default configuration in place, after any existing file was
moved aside to a sibling whose name carries the time.
-/

set_option autoImplicit false

namespace TranscodingEngines

inductive ConfigFailure where
  | noHome
  | unreadable (path : FilePath) (cause : SystemError)
  | malformed (path : FilePath) (cause : Config.TextError)
  | noDirectory (directory : FilePath) (cause : SystemError)
  | unwritable (path : FilePath) (cause : SystemError)
  | noBackup (path backup : FilePath) (cause : SystemError)

/-- The text of a failure: what was attempted, and behind a colon the cause. -/
def ConfigFailure.message : ConfigFailure → String
  | noHome => "Could not determine config directory"
  | unreadable path cause => "Failed to read config file: " ++ path.text ++ ": " ++ cause.message
  | malformed path cause => "Failed to parse config file: " ++ path.text ++ ": " ++ cause.message
  | noDirectory directory cause =>
    "Failed to create config directory: " ++ directory.text ++ ": " ++ cause.message
  | unwritable path cause => "Failed to write config file: " ++ path.text ++ ": " ++ cause.message
  | noBackup path backup cause =>
    "Failed to back up config file " ++ path.text ++ " to " ++ backup.text ++ ": " ++ cause.message

/-- What a file operation comes to: its result, the host afterwards, and what was reported. -/
structure FileOutcome (α : Type) where
  result : Except ConfigFailure α
  host : Host
  events : List Log.Event

namespace Config

/-- The file in which the configuration is kept unless another one is named. -/
def defaultPath (h : Host) : Except ConfigFailure FilePath :=
  match h.home with
  | some home => .ok (((home.join ⟨".config"⟩).join ⟨"engine-registry"⟩).join ⟨"config.toml"⟩)
  | none => .error .noHome

def makeRoom (h : Host) (path : FilePath) : Except ConfigFailure Unit × Host :=
  match path.parent with
  | none => (.ok (), h)
  | some directory =>
    match h.makeDirectories directory with
    | (.ok (), ready) => (.ok (), ready)
    | (.error cause, ready) => (.error (.noDirectory directory cause), ready)

def save (c : Config) (h : Host) (path : FilePath) : FileOutcome Unit :=
  match makeRoom h path with
  | (.error failure, ready) => ⟨.error failure, ready, []⟩
  | (.ok (), ready) =>
    match ready.write path (Text.bytes c.encode) with
    | .error cause => ⟨.error (.unwritable path cause), ready, []⟩
    | .ok written => ⟨.ok (), written, []⟩

def fallbackReport (failure : ConfigFailure) : List Log.Event :=
  [⟨.warn, "Could not create default config file: " ++ failure.message⟩,
    ⟨.warn,
      "Using built-in defaults. Run 'engine-registry init-config' to create a config file."⟩]

def read (h : Host) (path : FilePath) : Except ConfigFailure Config :=
  match h.readText path with
  | .error cause => .error (.unreadable path cause)
  | .ok text =>
    match parse text with
    | .error cause => .error (.malformed path cause)
    | .ok c => .ok c

/-- Loads the configuration from a file. If nothing is there the default one is written and used; it
is used also if it cannot be written. -/
def load (h : Host) (path : FilePath) : FileOutcome Config :=
  if h.pathExists path then ⟨read h path, h, []⟩
  else
    let saved := default.save h path
    match saved.result with
    | .ok () => ⟨.ok default, saved.host, []⟩
    | .error failure => ⟨.ok default, saved.host, fallbackReport failure⟩

/-- Where a file is moved before it is replaced: a sibling whose name carries the time. -/
def backupOf (path : FilePath) (now : LocalTime) : FilePath :=
  path.withFileName (path.fileName.getD "config.toml" ++ "." ++ now.stamp ++ ".bak")

/-- Puts the default configuration into a file. What was there before is moved aside first, and the
result tells where to. -/
def reset (h : Host) (path : FilePath) : FileOutcome (Option FilePath) :=
  if h.pathExists path then
    let backup := backupOf path h.clock
    match h.rename path backup with
    | .error cause => ⟨.error (.noBackup path backup cause), h, []⟩
    | .ok moved =>
      let saved := default.save moved path
      ⟨saved.result.map fun _ => some backup, saved.host, saved.events⟩
  else
    let saved := default.save h path
    ⟨saved.result.map fun _ => none, saved.host, saved.events⟩

end Config

end TranscodingEngines
