import TranscodingEngines.Registry.Basic
import TranscodingEngines.Text.Escape
import TranscodingEngines.Text.Lines
import TranscodingEngines.Host.Clock

/-!
# What the commands print

Every function here returns lines. Columns are filled up with blanks, counted in characters; the
identifier of an engine is never filled up.
-/

set_option autoImplicit false

namespace TranscodingEngines.CommandLine

def padRight (width : Nat) (s : String) : String :=
  s ++ String.ofList (List.replicate (width - s.length) ' ')

def padLeft (width : Nat) (s : String) : String :=
  String.ofList (List.replicate (width - s.length) ' ') ++ s

/-! ## Engines -/

def statusLabel (e : Engine) : String :=
  if e.isAvailable then if e.enabled then "active" else "disabled" else "unavailable"

def engineLine (place : Nat) (e : Engine) : String :=
  padLeft 3 (toString place) ++ ". " ++ e.id.text ++ " " ++ padRight 24 e.name ++ " "
    ++ padRight 12 (statusLabel e) ++ " " ++ e.version.getD "-"

def engineLines (engines : List Engine) : List String :=
  engines.zipIdx.map fun entry => engineLine (entry.2 + 1) entry.1

def nothingListed : String := "No transcoding engines available"

def listingLines (engines : List Engine) : List String :=
  if engines.isEmpty then [nothingListed] else engineLines engines

def jsonOptional : Option String → String
  | some s => Text.jsonString s
  | none => "null"

def jsonBool (b : Bool) : String := if b then "true" else "false"

def jsonFields (e : Engine) : List (String × String) :=
  [("id", Text.jsonString e.id.text), ("name", Text.jsonString e.name),
    ("family", Text.jsonString e.family.key), ("purpose", Text.jsonString e.purpose.key),
    ("enabled", jsonBool e.enabled), ("available", jsonBool e.isAvailable),
    ("role", Text.jsonString e.currentRole.label),
    ("executable", jsonOptional (e.executable.map (·.text))),
    ("version", jsonOptional e.version),
    ("reason", jsonOptional ((e.availability e.currentRole).reason.map (·.message)))]

def jsonEngine (e : Engine) : String :=
  "  \x7b\n"
    ++ ",\n".intercalate ((jsonFields e).map fun entry =>
      "    " ++ Text.jsonString entry.1 ++ ": " ++ entry.2)
    ++ "\n  \x7d"

def jsonListing (engines : List Engine) : List String :=
  if engines.isEmpty then ["[]"]
  else ["[\n" ++ ",\n".intercalate (engines.map jsonEngine) ++ "\n]"]

def roleLines (e : Engine) (r : Role) : List String :=
  let availability := e.availability r
  let configured := ((e.configured r).map (·.text)).getD "-"
  ["", "   [" ++ r.label ++ "] " ++ availability.label, "      Configured: " ++ configured]
    ++ ((e.resolved r).map fun path => "      Resolved:   " ++ path.text).toList
    ++ (availability.version.map fun version => "      Version:    " ++ version).toList
    ++ (availability.reason.map fun reason => "      Reason:     " ++ reason.message).toList

def detailLines (e : Engine) : List String :=
  [e.name ++ " (" ++ e.id.text ++ ")", "   Family:  " ++ e.family.label,
    "   Enabled: " ++ (if e.enabled then "yes" else "no"),
    "   Current executable: " ++ e.currentRole.label]
    ++ e.roles.flatMap (roleLines e)

/-! ## Resources -/

def resourceLine (location : String) (purpose : Option Purpose) : String :=
  "Resource: " ++ location ++ " ("
    ++ ((purpose.map Purpose.label).getD "unrecognised media") ++ ")"

def nothingFound : String := "No engine can handle this resource"

/-! ## Probes -/

def diagnosticIndent : String := String.ofList (List.replicate 26 ' ')

def recordLines (r : ProbeRecord) : List String :=
  (r.probedAt.text ++ "  " ++ padRight 4 (if r.pass then "ok" else "fail") ++ " " ++ r.executable.text)
    :: (Text.lines (r.diagnostic.getD "")).map fun line => diagnosticIndent ++ Text.trimEnd line

def nothingProbed : String := "No executables were probed"

def probeLines (records : List ProbeRecord) : List String :=
  if records.isEmpty then [nothingProbed] else records.flatMap recordLines

/-! ## Log -/

/-- The least severe level that is shown for a count of the option for more talk. -/
def shownLevel (verbosity : Nat) : Log.Level :=
  match verbosity with
  | 0 => .warn
  | 1 => .info
  | 2 => .debug
  | _ => .trace

/-- A character of a message in the log. One that could steer a terminal is written as its code. -/
def logChar (c : Char) : String :=
  if [0x07, 0x08, 0x0c, 0x1b, 0x7f].contains c.toNat then
    "\\x" ++ (if c.toNat < 0x10 then "0" else "") ++ Text.hexDigits c.toNat
  else if 0x80 ≤ c.toNat && c.toNat ≤ 0x9f then Text.bracedCode c
  else String.singleton c

def logLine (time : LocalTime) (e : Log.Event) : String :=
  time.logText ++ " " ++ padLeft 5 e.level.label ++ " "
    ++ String.join (e.message.toList.map logChar)

def logLines (time : LocalTime) (verbosity : Nat) (events : List Log.Event) : List String :=
  (Log.upTo (shownLevel verbosity) events).map (logLine time)

end TranscodingEngines.CommandLine
