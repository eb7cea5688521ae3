import TranscodingEngines.Engine.Kind
import TranscodingEngines.Engine.Availability
import TranscodingEngines.Platform
import TranscodingEngines.Probe.Run
import TranscodingEngines.Probe.Banner

/-!
# Probe descriptors

How a tool is probed depends on its family: with which arguments it is run, what a good answer
looks like, where the version stands, and where the explanation is found when the run fails.
Nothing can be learnt from the output of VLC, so its family has no descriptor and is never run.
-/

set_option autoImplicit false

namespace TranscodingEngines

inductive SuccessShape where
  | exitZero
  /-- The first line is blank, whatever the exit code; the version stands on the second. -/
  | blankBanner
  deriving DecidableEq, Repr

inductive FailureDetail where
  /-- The last two lines, or the last one when only two were printed. -/
  | trailingLines
  /-- The third line from the end, when a blank line and one more line follow it. -/
  | beforeBlankSeparator
  | exitCode (linux64Hint : Option String)
  | firstLine
  deriving DecidableEq, Repr

structure Descriptor where
  args : List String
  success : SuccessShape
  version : String → Option String
  failure : FailureDetail

def muxerHint : String :=
  "tsMuxeR is a 32-bit program, make sure the 32-bit system libraries are installed"

def Family.descriptor? : Family → Option Descriptor
  | .ffmpeg => some ⟨["-version"], .exitZero, Banner.ffmpegVersion, .trailingLines⟩
  | .mencoder => some ⟨["-info:help"], .exitZero, Banner.mencoderVersion, .beforeBlankSeparator⟩
  | .tsMuxeR => some ⟨["-v"], .exitZero, Banner.muxerVersion, .exitCode (some muxerHint)⟩
  | .dcraw => some ⟨[], .blankBanner, Banner.rawDecoderVersion, .firstLine⟩
  | .vlc => none

def errorHeadline (engine : String) : String :=
  "An error occurred while testing transcoding engine " ++ engine

def withDetail (engine detail : String) : String := errorHeadline engine ++ " \n" ++ detail

def withoutDetail (engine : String) : String :=
  errorHeadline engine ++ ": no further details are available"

/-- The line that a successful run shows the version on: none if the run was no success, and no line
if the success left nothing to read. -/
def SuccessShape.versionLine (shape : SuccessShape) (output : Output) : Option (Option String) :=
  match shape with
  | .exitZero => if output.exitCode = 0 then some output.lines.head? else none
  | .blankBanner =>
    match output.lines with
    | first :: rest => if Text.isBlank first then some rest.head? else none
    | [] => none

def FailureDetail.diagnostic (detail : FailureDetail) (engine : String) (output : Output)
    (platform : Platform) : String :=
  match detail with
  | .trailingLines =>
    match output.lines.reverse with
    | last :: before :: _ :: _ => withDetail engine (before ++ " " ++ last)
    | [last, _] => withDetail engine last
    | _ => withoutDetail engine
  | .beforeBlankSeparator =>
    match output.lines.reverse with
    | last :: separator :: line :: _ :: _ =>
      if !Text.isBlank last && Text.isBlank separator && !Text.isBlank line then
        withDetail engine line
      else withoutDetail engine
    | _ => withoutDetail engine
  | .exitCode hint =>
    let base :=
      "Transcoding engine " ++ engine ++ " exited with code " ++ toString output.exitCode
    match hint with
    | some text => if platform.isLinux && platform.is64Bit then base ++ ". \n" ++ text else base
    | none => base
  | .firstLine =>
    match output.lines with
    | first :: _ => withDetail engine first
    | [] => withoutDetail engine

/-- Judges a finished run. A tool that answers well counts as working even if its version cannot be
read. -/
def Descriptor.evaluate (d : Descriptor) (engine : String) (output : Output)
    (platform : Platform) : Verdict :=
  match d.success.versionLine output with
  | some line => .ok (line.bind d.version)
  | none => .error (.rejected (d.failure.diagnostic engine output platform))

end TranscodingEngines
