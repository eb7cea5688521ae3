import TranscodingEngines.Host.Machine
import TranscodingEngines.Host.Script.Syntax

/-!
# The state of a shell

A shell has a name, arguments, variables, functions, options and traps. Its code is a task that
changes this state. How a shell goes on after a command is part of the state as well: it may be
leaving loops, a function, or itself.
-/

set_option autoImplicit false

namespace TranscodingEngines.Script

inductive Flow where
  | running
  | breaking (loops : Nat)
  | continuing (loops : Nat)
  | returning
  | exited
  deriving DecidableEq, Repr

structure Binding where
  value : Option String
  exported : Bool
  readOnly : Bool
  deriving DecidableEq, Repr

/-- A command that was started in the background: its processes, the last of which counts, and how
those that were waited for ended. -/
structure Job where
  processes : List Nat
  ended : List (Nat × ProcessEnd)
  deriving DecidableEq, Repr

structure Shell where
  name : String
  args : List String
  variables_ : List (String × Binding)
  functions : List (String × Command)
  found : List (String × String)
  directory : String
  aliases : List (String × String)
  options : List Char
  /-- Commands for signals; the number zero stands for the end of the shell. -/
  traps : List (Nat × String)
  arrived : List Nat
  status : Nat
  trapStatus : Option Nat
  outputStatus : Nat
  line : Nat
  speaker : Option String
  loopDepth : Nat
  functionDepth : Nat
  saved : List (List (String × Option Binding))
  documents : List (Nat × Word)
  nextDocument : Nat
  /-- The number that the shell calls its own, also in a copy of itself. -/
  shellId : Nat
  jobs : List Job
  lastProcess : Option Nat
  optionArgument : Nat
  optionLetter : Nat
  isCopy : Bool
  isTracing : Bool
  flow : Flow

abbrev Code := StateT Shell Task

namespace Shell

def isRunning (s : Shell) : Bool := s.flow == .running

def withStatus (s : Shell) (status : Nat) : Shell := { s with status := status }

def exiting (s : Shell) (status : Nat) : Shell := { s with status := status, flow := .exited }

def hasOption (s : Shell) (letter : Char) : Bool := s.options.contains letter

/-! ## Variables -/

def binding? (s : Shell) (name : String) : Option Binding := s.variables_.lookup name

def valueNamed? (s : Shell) (name : String) : Option String :=
  (s.binding? name).bind (·.value)

def bind (s : Shell) (name : String) (b : Binding) : Shell :=
  { s with variables_ := (name, b) :: s.variables_.filter (·.1 != name) }

def unbind (s : Shell) (name : String) : Shell :=
  { s with variables_ := s.variables_.filter (·.1 != name) }

def isReadOnly (s : Shell) (name : String) : Bool :=
  match s.binding? name with
  | some b => b.readOnly
  | none => false

/-- Gives a variable a value, whether it may be changed or not. Options are read anew from an
argument when its number is given. -/
def put (s : Shell) (name value : String) : Shell :=
  let before := s.binding? name
  let exported := before.any (·.exported) || s.hasOption 'a'
  let s := s.bind name ⟨some value, exported, before.any (·.readOnly)⟩
  if name == "OPTIND" then
    { s with optionArgument := max 1 (value.toNat?.getD 1), optionLetter := 0 }
  else s

def environment (s : Shell) : List (String × String) :=
  s.variables_.reverse.filterMap fun v =>
    if v.2.exported then v.2.value.map fun value => (v.1, value) else none

def optionLetters : List Char := "pubaCEVvxsnmiIfe".toList

def parameter? (s : Shell) (name : String) : Option String :=
  match name with
  | "#" => some (toString s.args.length)
  | "?" => some (toString s.status)
  | "$" => some (toString s.shellId)
  | "!" => s.lastProcess.map toString
  | "-" => some (String.ofList (optionLetters.filter s.options.contains))
  | name =>
    match name.toList with
    | c :: _ =>
      if c.isDigit then
        match name.toNat? with
        | some 0 => some s.name
        | some (n + 1) => s.args[n]?
        | none => none
      else s.valueNamed? name
    | [] => none

def separators (s : Shell) : List Char :=
  match s.valueNamed? "IFS" with
  | some text => text.toList
  | none => [' ', '\t', '\n']

def hasTraps (s : Shell) : Bool := s.traps.any fun t => !t.2.isEmpty

end Shell

/-! ## Code -/

def setStatus (status : Nat) : Code Unit := modify (·.withStatus status)

def isRunning : Code Bool := return (← get).isRunning

def leave (status : Nat) : Code Unit := modify (·.exiting status)

def atLine (line : Nat) : Code Unit := modify fun s => { s with line := line }

def writeComplaint (text : String) : Code Unit := do
  let _ ← Task.write 2 (bytesOf text)

def complain (text : String) : Code Unit := do
  let s ← get
  let speaker := match s.speaker with
    | some name => name ++ ": "
    | none => ""
  writeComplaint (s.name ++ ": " ++ toString s.line ++ ": " ++ speaker ++ text ++ "\n")

def giveUp (text : String) : Code Unit := do
  complain text
  leave 2

def assign (name value : String) : Code Bool := do
  if (← get).isReadOnly name then
    complain (name ++ ": is read only")
    pure false
  else
    modify (·.put name value)
    pure true

def assignOrLeave (name value : String) : Code Unit := do
  if !(← assign name value) then leave 2

def collectSignals : Code Unit := do
  let signals ← Task.caught
  modify fun s => { s with arrived := s.arrived ++ signals }

def lookAround : Code Host := do
  let view ← Task.look
  let s ← get
  let path := (s.valueNamed? "PATH").getD ""
  let directories := path.splitOn ":"
  pure { view.host with searchPath := directories.map fun directory => ⟨ofRaw directory⟩ }

def startCopy (code : Code Unit) (after : Shell → Act) : Code Nat := fun s => do
  let id ← Task.fork fun _ => code { s with isCopy := true } fun result => after result.2
  pure (id, s)

end TranscodingEngines.Script
