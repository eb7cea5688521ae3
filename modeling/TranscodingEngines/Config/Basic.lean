import TranscodingEngines.Catalog
import TranscodingEngines.Config.Roles
import TranscodingEngines.Duration

/-!
# Configuration

What the user configures: the engines in order of preference, those switched off, the preferred role
of an engine, the paths of each tool, and how long a probe may take. What is left out has a default:
the built-in order of preference, nothing switched off, and one installed path for each tool.
-/

set_option autoImplicit false

namespace TranscodingEngines

structure Config where
  priority : List String
  disabled : List String
  roles : RoleTable
  tools : ToolPaths
  timeoutSecs : Nat
  deriving DecidableEq, Repr

def installedPath (name : String) : PerRole (Option FilePath) := ⟨none, some ⟨name⟩, none⟩

namespace Config

def defaultPriority : List String :=
  ["FFmpegVideo", "MEncoderVideo", "tsMuxeRVideo", "FFmpegAudio", "tsMuxeRAudio", "FFmpegWebVideo",
    "VLCWebVideo", "VLCVideo", "MEncoderWebVideo", "VLCAudioStreaming", "VLCVideoStreaming",
    "DCRaw", "AviSynthFFmpeg", "AviSynthMEncoder", "FFmpegDVRMSRemux"]

def defaultTools : ToolPaths where
  ffmpeg := installedPath "ffmpeg"
  mencoder := installedPath "mencoder"
  vlc := installedPath "vlc"
  tsMuxeR := installedPath "tsMuxeR"
  dcraw := installedPath "dcraw"

/-- The number of seconds a probe may take unless configured otherwise. -/
def defaultTimeoutSecs : Nat := 10

def default : Config where
  priority := defaultPriority
  disabled := []
  roles := .empty
  tools := defaultTools
  timeoutSecs := defaultTimeoutSecs

def probeTimeout (c : Config) : Duration := .ofSecs c.timeoutSecs

def settings (c : Config) : Settings := .ofLists c.disabled c.priority c.roles.entries

end Config

end TranscodingEngines
