import TranscodingEngines.FilePath
import TranscodingEngines.Engine.Basic
import TranscodingEngines.Text.Letters

/-!
# Media resources

A resource is what an engine is looked for: it has a name and tells which engines it is compatible
with. A media resource is a file or an address; the scheme of the address and the extension of the
name decide which purpose an engine must have. An address with a streaming scheme is always a
stream, and what follows the first question mark or number sign in it is no part of the name.
-/

set_option autoImplicit false

namespace TranscodingEngines

structure Resource where
  name : String
  isCompatible : Engine → Bool

namespace Media

def videoExtensions : List String :=
  ["mp4", "mkv", "webm", "mov", "avi", "flv", "m4v", "wmv", "mpg", "mpeg", "ts", "m2ts", "vob",
    "dvr-ms"]

def audioExtensions : List String :=
  ["mp3", "flac", "ogg", "oga", "wav", "m4a", "aac", "ac3", "dts", "mlp", "wma", "ape", "opus"]

def rawImageExtensions : List String :=
  ["arw", "cr2", "cr3", "crw", "dng", "erf", "kdc", "mrw", "nef", "nrw", "orf", "pef", "raf",
    "rw2", "sr2", "srf", "x3f"]

def streamSchemes : List String := ["http", "https", "rtsp", "rtmp", "mms", "mmsh", "udp", "rtp"]

def cutScheme : List Char → Option (List Char × List Char)
  | [] => none
  | ':' :: '/' :: '/' :: rest => some ([], rest)
  | c :: rest => (cutScheme rest).map fun parts => (c :: parts.1, parts.2)

/-- The path of a stream: its location after the scheme if that is a streaming scheme, up to a
question mark or a number sign. -/
def streamPath (location : String) : Option FilePath :=
  match cutScheme location.toList with
  | some (scheme, rest) =>
    if streamSchemes.contains (Text.lowerLetters (String.ofList scheme)) then
      some ⟨String.ofList (rest.takeWhile fun c => c != '?' && c != '#')⟩
    else none
  | none => none

def extensionOf (path : FilePath) : Option String := path.extension.map Text.lowerLetters

def filePurpose (ext : String) : Option Purpose :=
  if videoExtensions.contains ext then some .videoFile
  else if audioExtensions.contains ext then some .audioFile
  else if rawImageExtensions.contains ext then some .misc
  else none

def streamPurpose (ext : Option String) : Purpose :=
  if ext.any audioExtensions.contains then .audioStream else .videoStream

/-- The purpose that an engine for the media at a location has; none if the media are not known. -/
def purpose (location : String) : Option Purpose :=
  match streamPath location with
  | some path => some (streamPurpose (extensionOf path))
  | none => (extensionOf ⟨location⟩).bind filePurpose

def resource (location : String) : Resource where
  name := location
  isCompatible e := purpose location == some e.purpose

end Media

end TranscodingEngines
