import TranscodingEngines.Config.Basic
import TranscodingEngines.Toml.Writer

/-!
# Writing a configuration

Every part of a configuration is written, so that reading it back meets no default: the lists of
engines, the preferred roles, one table for each tool with the paths it has, and the time limit. The
tables are set apart by empty lines.
-/

set_option autoImplicit false

namespace TranscodingEngines.Config

open Toml (writeString writeArray writeAssignment writeHeader)

def encodePaths (paths : PerRole (Option FilePath)) : String :=
  String.join (Role.all.map fun r =>
    match paths.get r with
    | some path => writeAssignment r.label (writeString path.text)
    | none => "")

def encodeTool (name : String) (paths : PerRole (Option FilePath)) : String :=
  writeHeader ["executables", name] ++ encodePaths paths

def encodeLists (c : Config) : String :=
  writeHeader ["engines"] ++ writeAssignment "priority" (writeArray c.priority)
    ++ writeAssignment "disabled" (writeArray c.disabled)

def encodeRoles (c : Config) : String :=
  writeHeader ["engines", "roles"]
    ++ String.join (c.roles.entries.map fun entry =>
        writeAssignment entry.1 (writeString entry.2.label))

def encodeProbe (c : Config) : String :=
  writeHeader ["probe"] ++ writeAssignment "timeout_secs" (toString c.timeoutSecs)

def encodeTables (c : Config) : List String :=
  [encodeLists c, encodeRoles c, encodeTool "ffmpeg" c.tools.ffmpeg,
    encodeTool "mencoder" c.tools.mencoder, encodeTool "vlc" c.tools.vlc,
    encodeTool "tsmuxer" c.tools.tsMuxeR, encodeTool "dcraw" c.tools.dcraw, encodeProbe c]

def encode (c : Config) : String := "\n".intercalate (encodeTables c)

end TranscodingEngines.Config
