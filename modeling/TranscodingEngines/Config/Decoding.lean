import TranscodingEngines.Config.Basic
import TranscodingEngines.Toml.Reader

/-!
# Reading a configuration

A configuration is read from a document. Keys that mean nothing here are passed over; a value of the
wrong kind makes the whole document unreadable. A record is a table as a rule, but an array is taken
as its fields in order, and a moment as a table without any of its fields. A role is given by name,
or as the only key of a table with nothing behind it.
-/

set_option autoImplicit false

namespace TranscodingEngines.Config

open Toml (Value Entries)

def tableEntries? : Value → Option Entries
  | .inlineTable entries => some entries
  | .table _ entries => some entries
  | _ => none

def arrayItems? : Value → Option (List Value)
  | .array items => some items
  | .tables items => some items
  | _ => none

def fields (keys : List String) (value : Value) : Option (List (Option Value)) :=
  match value with
  | .moment _ => some (keys.map fun _ => none)
  | value =>
    match tableEntries? value, arrayItems? value with
    | some entries, _ => some (keys.map entries.get?)
    | none, some items => some ((List.range keys.length).map fun i => items[i]?)
    | none, none => none

def field {α : Type} (fallback : α) (read : Value → Option α) : Option Value → Option α
  | none => some fallback
  | some value => read value

def text? : Value → Option String
  | .string text => some text
  | _ => none

def texts? (value : Value) : Option (List String) := (arrayItems? value).bind (·.mapM text?)

def count? : Value → Option Nat
  | .integer n => if 0 ≤ n then some n.toNat else none
  | _ => none

def isVoid (value : Value) : Bool :=
  match tableEntries? value, arrayItems? value with
  | some entries, _ => entries.isEmpty
  | none, some items => items.isEmpty
  | none, none => false

def role? : Value → Option Role
  | .string name => Role.ofLabel? name
  | value =>
    match tableEntries? value with
    | some [(name, inner)] => if isVoid inner then Role.ofLabel? name else none
    | _ => none

def roles? (value : Value) : Option RoleTable :=
  (tableEntries? value).bind fun entries =>
    (entries.mapM fun entry => (role? entry.2).map fun role => (entry.1, role)).map .ofList

def path? (value : Option Value) : Option (Option FilePath) :=
  field none (fun v => (text? v).map fun text => some ⟨text⟩) value

def paths? (value : Value) : Option (PerRole (Option FilePath)) :=
  (fields (Role.all.map Role.label) value).bind fun
    | [bundled, installed, custom] => do
      pure ⟨← path? bundled, ← path? installed, ← path? custom⟩
    | _ => none

structure EngineLists where
  priority : List String
  disabled : List String
  roles : RoleTable

def EngineLists.default : EngineLists := ⟨defaultPriority, [], .empty⟩

def engineLists? (value : Value) : Option EngineLists :=
  (fields ["priority", "disabled", "roles"] value).bind fun
    | [priority, disabled, roles] => do
      pure ⟨← field defaultPriority texts? priority, ← field [] texts? disabled,
        ← field .empty roles? roles⟩
    | _ => none

def tools? (value : Value) : Option ToolPaths :=
  (fields ["ffmpeg", "mencoder", "vlc", "tsmuxer", "dcraw"] value).bind fun
    | [ffmpeg, mencoder, vlc, tsMuxeR, dcraw] => do
      let d := defaultTools
      pure ⟨← field d.ffmpeg paths? ffmpeg, ← field d.mencoder paths? mencoder,
        ← field d.vlc paths? vlc, ← field d.tsMuxeR paths? tsMuxeR, ← field d.dcraw paths? dcraw⟩
    | _ => none

def timeout? (value : Value) : Option Nat :=
  (fields ["timeout_secs"] value).bind fun
    | [timeout] => field defaultTimeoutSecs count? timeout
    | _ => none

def ofEntries? (entries : Entries) : Option Config := do
  let lists ← field .default engineLists? (entries.get? "engines")
  let tools ← field defaultTools tools? (entries.get? "executables")
  let timeout ← field defaultTimeoutSecs timeout? (entries.get? "probe")
  pure ⟨lists.priority, lists.disabled, lists.roles, tools, timeout⟩

inductive TextError where
  | unreadable (cause : Toml.ReadError)
  | wrongKind
  deriving DecidableEq, Repr

def TextError.message : TextError → String
  | unreadable cause => cause.message
  | wrongKind => "TOML parse error: a value is of the wrong kind"

def parse (text : String) : Except TextError Config :=
  match Toml.read text with
  | .error cause => .error (.unreadable cause)
  | .ok entries =>
    match ofEntries? entries with
    | some config => .ok config
    | none => .error .wrongKind

end TranscodingEngines.Config
