/-!
# Families and purposes of engines

The family is the tool behind an engine and decides how it is probed. The purpose is the kind of
media it produces and decides which resources it is compatible with. Both have a name in stored data
beside the name they are shown by.
-/

set_option autoImplicit false

namespace TranscodingEngines

inductive Family where
  | ffmpeg
  | mencoder
  | tsMuxeR
  | dcraw
  | vlc
  deriving DecidableEq, Repr

namespace Family

def all : List Family := [ffmpeg, mencoder, tsMuxeR, dcraw, vlc]

def label : Family → String
  | ffmpeg => "ffmpeg"
  | mencoder => "mencoder"
  | tsMuxeR => "tsmuxer"
  | dcraw => "dcraw"
  | vlc => "vlc"

def key : Family → String
  | ffmpeg => "f_fmpeg"
  | mencoder => "m_encoder"
  | tsMuxeR => "ts_muxe_r"
  | dcraw => "d_c_raw"
  | vlc => "vlc"

def ofLabel? (s : String) : Option Family := all.find? (·.label == s)

end Family

inductive Purpose where
  | videoFile
  | audioFile
  | videoStream
  | audioStream
  | misc
  deriving DecidableEq, Repr

namespace Purpose

def all : List Purpose := [videoFile, audioFile, videoStream, audioStream, misc]

def label : Purpose → String
  | videoFile => "VideoFile"
  | audioFile => "AudioFile"
  | videoStream => "VideoStream"
  | audioStream => "AudioStream"
  | misc => "Misc"

def key : Purpose → String
  | videoFile => "video_file"
  | audioFile => "audio_file"
  | videoStream => "video_stream"
  | audioStream => "audio_stream"
  | misc => "misc"

def ofKey? (s : String) : Option Purpose := all.find? (·.key == s)

end Purpose

end TranscodingEngines
