import TranscodingEngines.Config.Basic
import TranscodingEngines.Text.Escape

/-!
# Showing a configuration

A configuration is shown as an outline with every part on lines of its own. A group opens on one
line and closes on another, with its items indented by four blanks between them and a comma behind
each; a group without items takes one line.
-/

set_option autoImplicit false

namespace TranscodingEngines.Config

abbrev Outline := List String

def withComma (lines : Outline) : Outline :=
  match lines.reverse with
  | last :: before => (before.reverse) ++ [last ++ ","]
  | [] => []

def withLead (lead : String) : Outline → Outline
  | first :: rest => (lead ++ first) :: rest
  | [] => []

def group (opening closing : String) (items : List Outline) : Outline :=
  if items.isEmpty then [opening ++ closing]
  else
    [opening] ++ items.flatMap (fun item => (withComma item).map ("    " ++ ·)) ++ [closing]

def outlineRecord (name : String) (parts : List (String × Outline)) : Outline :=
  group (name ++ " \x7b") "\x7d" (parts.map fun part => withLead (part.1 ++ ": ") part.2)

def outlineTexts (texts : List String) : Outline :=
  group "[" "]" (texts.map fun text => [Text.quoted text])

def outlineRole : Role → String
  | .bundled => "Bundled"
  | .installed => "Installed"
  | .custom => "Custom"

def outlineRoles (roles : RoleTable) : Outline :=
  group "\x7b" "\x7d" (roles.entries.map fun entry =>
    [Text.quoted entry.1 ++ ": " ++ outlineRole entry.2])

def outlinePath : Option FilePath → Outline
  | some path => group "Some(" ")" [[Text.quoted path.text]]
  | none => ["None"]

def outlinePaths (paths : PerRole (Option FilePath)) : Outline :=
  outlineRecord "ToolPaths" (Role.all.map fun r => (r.label, outlinePath (paths.get r)))

def outline (c : Config) : Outline :=
  outlineRecord "Config" [
    ("engines", outlineRecord "EnginesConfig" [
      ("priority", outlineTexts c.priority),
      ("disabled", outlineTexts c.disabled),
      ("roles", outlineRoles c.roles)]),
    ("executables", outlineRecord "ExecutablesConfig" [
      ("ffmpeg", outlinePaths c.tools.ffmpeg),
      ("mencoder", outlinePaths c.tools.mencoder),
      ("vlc", outlinePaths c.tools.vlc),
      ("tsmuxer", outlinePaths c.tools.tsMuxeR),
      ("dcraw", outlinePaths c.tools.dcraw)]),
    ("probe", outlineRecord "ProbeConfig" [("timeout_secs", [toString c.timeoutSecs])])]

end TranscodingEngines.Config
