import TranscodingEngines.FilePath

/-!
# Arguments of the command line

A command line names a command, with options before and behind it. Some options are understood
everywhere: another configuration file, and more talk in the log. Where such an option stands on
both sides of the command, the one behind it counts. A switch and the configuration file may be
given once on each side; two dashes alone end the options.
-/

set_option autoImplicit false

namespace TranscodingEngines.CommandLine

inductive Command where
  | list (all json : Bool)
  | check (id : String)
  | matchResource (location : String) (all : Bool)
  | cache
  | initConfig
  deriving DecidableEq, Repr

structure Invocation where
  command : Command
  config : Option FilePath
  verbosity : Nat
  deriving DecidableEq, Repr

inductive Refusal where
  | misuse
  | helpWanted
  deriving DecidableEq, Repr

structure Given where
  config : Option FilePath
  verbosity : Nat
  switches : List String
  operands : List String
  deriving DecidableEq, Repr

def Given.nothing : Given := ⟨none, 0, [], []⟩

/-- Adds an operand, unless there are already as many as there may be. -/
def Given.addOperand (g : Given) (most : Nat) (operand : String) : Except Refusal Given :=
  if g.operands.length < most then .ok { g with operands := g.operands ++ [operand] }
  else .error .misuse

def Given.setConfig (g : Given) (value : String) : Except Refusal Given :=
  if value.isEmpty || g.config.isSome then .error .misuse
  else .ok { g with config := some ⟨value⟩ }

def Given.addSwitch (g : Given) (known : List String) (name : String) : Except Refusal Given :=
  if name = "verbose" then .ok { g with verbosity := g.verbosity + 1 }
  else if name = "help" then .error .helpWanted
  else if known.contains name && !g.switches.contains name then
    .ok { g with switches := g.switches ++ [name] }
  else .error .misuse

def Given.addLetters (g : Given) : List Char → Except Refusal Given
  | [] => .ok g
  | 'v' :: rest => { g with verbosity := g.verbosity + 1 }.addLetters rest
  | 'h' :: _ => .error .helpWanted
  | _ :: _ => .error .misuse

def isValue (arg : String) : Bool :=
  match arg.toList with
  | '-' :: _ :: _ => false
  | _ => true

def splitValue (option : List Char) : String × Option String :=
  let name := option.takeWhile (· != '=')
  match option.drop name.length with
  | _ :: value => (String.ofList name, some (String.ofList value))
  | [] => (String.ofList name, none)

def readFront (g : Given) : List String → Except Refusal (Given × List String)
  | [] => .ok (g, [])
  | arg :: rest =>
    match arg.toList with
    | ['-', '-'] => .error .misuse
    | '-' :: '-' :: option =>
      match splitValue option with
      | ("config", some value) => (g.setConfig value).bind (readFront · rest)
      | ("config", none) =>
        match rest with
        | value :: rest =>
          if isValue value then (g.setConfig value).bind (readFront · rest) else .error .misuse
        | [] => .error .misuse
      | (_, some _) => .error .misuse
      | (name, none) => (g.addSwitch [] name).bind (readFront · rest)
    | '-' :: letter :: letters => (g.addLetters (letter :: letters)).bind (readFront · rest)
    | _ => .ok (g, arg :: rest)

def readBack (known : List String) (most : Nat) (g : Given) : List String → Except Refusal Given
  | [] => .ok g
  | arg :: rest =>
    match arg.toList with
    | ['-', '-'] => rest.foldlM (fun g operand => g.addOperand most operand) g
    | '-' :: '-' :: option =>
      match splitValue option with
      | ("config", some value) => (g.setConfig value).bind (readBack known most · rest)
      | ("config", none) =>
        match rest with
        | value :: rest =>
          if isValue value then (g.setConfig value).bind (readBack known most · rest)
          else .error .misuse
        | [] => .error .misuse
      | (_, some _) => .error .misuse
      | (name, none) => (g.addSwitch known name).bind (readBack known most · rest)
    | '-' :: letter :: letters =>
      (g.addLetters (letter :: letters)).bind (readBack known most · rest)
    | _ => (g.addOperand most arg).bind (readBack known most · rest)

/-- The switches that a command knows and the most operands it takes. -/
def commandForms : List (String × List String × Nat) :=
  [("list", ["all", "json"], 0), ("check", [], 1), ("match", ["all"], 1), ("cache", [], 0),
    ("init-config", [], 0)]

def commandOf (name : String) (g : Given) : Except Refusal Command :=
  let all := g.switches.contains "all"
  match name, g.operands with
  | "list", [] => .ok (.list all (g.switches.contains "json"))
  | "check", [id] => .ok (.check id)
  | "match", [location] => .ok (.matchResource location all)
  | "cache", [] => .ok .cache
  | "init-config", [] => .ok .initConfig
  | _, _ => .error .misuse

/-- Whether the explanation of a topic can be given: of everything, of one command, or of the
explanation itself. Options mean nothing here. -/
def readHelp : List String → Refusal
  | [] => .helpWanted
  | [topic] =>
    if topic = "help" || (commandForms.lookup topic).isSome then .helpWanted else .misuse
  | _ => .misuse

def readArguments (args : List String) : Except Refusal Invocation :=
  match readFront .nothing args with
  | .error refusal => .error refusal
  | .ok (_, []) => .error .misuse
  | .ok (_, "help" :: rest) => .error (readHelp rest)
  | .ok (front, name :: rest) =>
    match commandForms.lookup name with
    | none => .error .misuse
    | some (known, most) =>
      match readBack known most .nothing rest with
      | .error refusal => .error refusal
      | .ok back =>
        (commandOf name back).map fun command =>
          ⟨command, back.config.or front.config,
            if back.verbosity = 0 then front.verbosity else back.verbosity⟩

end TranscodingEngines.CommandLine
