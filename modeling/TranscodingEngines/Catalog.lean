import TranscodingEngines.Registry.Basic

/-!
# The built-in engines

The engines that every server knows. Three of them exist on Windows only and come first there. Each
takes the three paths configured for its tool; its default role is the bundled one on Windows and
the installed one elsewhere.
-/

set_option autoImplicit false

namespace TranscodingEngines

structure ToolPaths where
  ffmpeg : PerRole (Option FilePath)
  mencoder : PerRole (Option FilePath)
  vlc : PerRole (Option FilePath)
  tsMuxeR : PerRole (Option FilePath)
  dcraw : PerRole (Option FilePath)
  deriving DecidableEq, Repr

def ToolPaths.forFamily (t : ToolPaths) : Family → PerRole (Option FilePath)
  | .ffmpeg => t.ffmpeg
  | .mencoder => t.mencoder
  | .vlc => t.vlc
  | .tsMuxeR => t.tsMuxeR
  | .dcraw => t.dcraw

namespace Catalog

structure Entry where
  id : String
  name : String
  family : Family
  purpose : Purpose
  avisynth : Bool
  deriving DecidableEq, Repr

def windowsOnly : List Entry :=
  [⟨"AviSynthFFmpeg", "AviSynth/FFmpeg", .ffmpeg, .videoFile, true⟩,
    ⟨"AviSynthMEncoder", "AviSynth/MEncoder", .mencoder, .videoFile, true⟩,
    ⟨"FFmpegDVRMSRemux", "FFmpeg DVR-MS Remux", .ffmpeg, .misc, false⟩]

def portable : List Entry :=
  [⟨"FFmpegAudio", "FFmpeg Audio", .ffmpeg, .audioFile, false⟩,
    ⟨"MEncoderVideo", "MEncoder", .mencoder, .videoFile, false⟩,
    ⟨"FFmpegVideo", "FFmpeg", .ffmpeg, .videoFile, false⟩,
    ⟨"VLCVideo", "VLC", .vlc, .videoFile, false⟩,
    ⟨"FFmpegWebVideo", "FFmpeg Web Video", .ffmpeg, .videoStream, false⟩,
    ⟨"MEncoderWebVideo", "MEncoder Web", .mencoder, .videoStream, false⟩,
    ⟨"VLCWebVideo", "VLC Web Video", .vlc, .videoStream, false⟩,
    ⟨"tsMuxeRVideo", "tsMuxeR", .tsMuxeR, .videoFile, false⟩,
    ⟨"tsMuxeRAudio", "tsMuxeR Audio", .tsMuxeR, .audioFile, false⟩,
    ⟨"VLCAudioStreaming", "VLC Web Audio (Legacy)", .vlc, .audioStream, false⟩,
    ⟨"VLCVideoStreaming", "VLC Web Video (Legacy)", .vlc, .videoStream, false⟩,
    ⟨"DCRaw", "DCRaw", .dcraw, .misc, false⟩]

def entries (platform : Platform) : List Entry :=
  if platform.isWindows then windowsOnly ++ portable else portable

def defaultRole (platform : Platform) : Role :=
  if platform.isWindows then .bundled else .installed

def engine (tools : ToolPaths) (platform : Platform) (entry : Entry) : Engine :=
  let base := Engine.new (.ofText entry.id) entry.name entry.family entry.purpose
  let paths := tools.forFamily entry.family
  let declared := Role.all.foldl (fun e r => e.withExecutable r (paths.get r)) base
  let ready := declared.withDefaultRole (defaultRole platform)
  if entry.avisynth then ready.withAvisynth else ready

def engines (tools : ToolPaths) (platform : Platform) : List Engine :=
  (entries platform).map (engine tools platform)

end Catalog

def Registry.registerBuiltin (g : Registry) (env : Environment) (tools : ToolPaths) : Outcome :=
  let engines := Catalog.engines tools env.platform
  let outcome := g.registerAll env engines
  { outcome with
    events :=
      ⟨.debug, "Registering " ++ toString engines.length ++ " built-in transcoding engines"⟩
        :: outcome.events }

end TranscodingEngines
