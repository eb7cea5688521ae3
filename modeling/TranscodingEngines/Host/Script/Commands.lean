import TranscodingEngines.Host.Script.Children
import TranscodingEngines.Host.Script.Builtin.Places
import TranscodingEngines.Host.Script.Builtin.Names

/-!
# Simple commands

A simple command consists of assignments, words and redirections. Its first word names a function, a
command of the shell, or a program. The assignments hold for the command alone, unless it is a
special one or there is none.
-/

set_option autoImplicit false

namespace TranscodingEngines.Script

/-- Lets a program of the machine take over a process; it gets an environment. -/
abbrev Start := Image → List (String × String) → Act

def commandTime : Nat := 4

def loadTime : Nat := 400

def mostFunctions : Nat := 1000

/-! ## Programs -/

/-- Loads a program with raw arguments; what an interpreter adds to them is made raw. -/
def loadRaw (h : Host) (place name : String) (args : List String) : Except SystemError Image :=
  let path : FilePath := ⟨ofRaw place⟩
  (h.loadAt path []).map fun image =>
    let called := if image.name == path.text && image.args.isEmpty then name else toRaw image.name
    ⟨image.utility, called, image.args.map toRaw ++ args⟩

def loadStatus (cause : SystemError) : Nat :=
  match cause with
  | .noSuchEntry | .notDirectory | .tooManyLinks | .nameTooLong => 127
  | _ => 126

/-- Gives the process to a program. A file that is no program is taken for a script. If there is
nothing to load, the shell ends. -/
def become (start : Start) (place name : String) (args : List String) : Code Unit := do
  let s ← get
  let h ← lookAround
  let take (image : Image) : Code Unit := fun _ _ =>
    .spend loadTime fun _ => .turn fun _ => start image s.environment
  match loadRaw h place name args with
  | .ok image => take image
  | .error .execFormat => take ⟨.shell, "/bin/sh", place :: args⟩
  | .error cause =>
    complain (name ++ ": " ++ programFault cause)
    leave (loadStatus cause)

/-- Runs a program and waits for its end, unless nothing comes after it. -/
def runProgram (start : Start) (go : Go) (manner : Manner) (name : String) (args : List String) :
    Code Unit := do
  let s ← get
  let h ← lookAround
  let place : Except SystemError String :=
    if name.toList.contains '/' then .ok name
    else
      match s.found.lookup name with
      | some place => if h.pathExists ⟨ofRaw place⟩ then .ok place else placeOfProgram h name
      | none => placeOfProgram h name
  match place with
  | .error cause =>
    complain (name ++ ": " ++ programFault cause)
    setStatus 127
  | .ok place =>
    if !(name.toList.contains '/') then remember name place
    if manner.final && !s.hasTraps then become start place name args
    else runApart go (become start place name args)

/-! ## Functions -/

def dropLocals : Code Unit :=
  modify fun s =>
    match s.saved with
    | [] => s
    | frame :: rest =>
      let s := { s with saved := rest }
      frame.reverse.foldl (fun s entry =>
        match entry.2 with
        | some b => s.bind entry.1 b
        | none => s.unbind entry.1) s

def runFunction (go : Go) (manner : Manner) (body : Command) (args : List String) : Code Unit := do
  let before ← get
  if mostFunctions ≤ before.functionDepth then
    giveUp ("Maximum function recursion depth (" ++ toString mostFunctions ++ ") reached")
  else
    set { before with
      args := args
      loopDepth := 0
      functionDepth := before.functionDepth + 1
      optionArgument := 1
      optionLetter := 0 }
    go manner.followed body
    modify fun s => { s with
      args := before.args
      loopDepth := before.loopDepth
      functionDepth := before.functionDepth
      optionArgument := before.optionArgument
      optionLetter := before.optionLetter
      flow := if s.flow == .returning then .running else s.flow }

/-! ## Commands that run others -/

def evalCommand (go : Go) (manner : Manner) (args : List String) : Builtin := do
  if args.isEmpty then pure (some 0)
  else if ← runText go manner.followed false (" ".intercalate args).toList then
    return some (← get).status
  else pure none

/-- Finds a file with commands in the directories of the search path. -/
def placeOfText (h : Host) (name : String) : Option String :=
  if name.toList.contains '/' then some name
  else
    ((h.candidates (ofRaw name)).find? fun path =>
      match h.find path with
      | .ok (_, .file _ _) => true
      | .ok (_, .program _ _) => true
      | _ => false).map fun path => toRaw path.text

/-- The contents of a file with commands. A directory holds none. -/
def textAt (h : Host) (name : String) : Except SystemError (List UInt8) :=
  match h.readBytes ⟨ofRaw name⟩ with
  | .error .isDirectory => .ok []
  | result => result

def dotCommand (go : Go) (args : List String) : Builtin := do
  match args with
  | [] => pure (some 0)
  | name :: _ =>
    let h ← lookAround
    match placeOfText h name with
    | none => fails (name ++ ": not found")
    | some place =>
      match textAt h place with
      | .error cause => fails (openFault .read place cause)
      | .ok bytes =>
        modify fun s => { s with speaker := some place }
        let text := (rawChars bytes).filter (· != '\x00')
        let isScript ← runText go .plain true text
        modify fun s => { s with flow := if s.flow == .returning then .running else s.flow }
        if isScript then return some (← get).status else pure none

def execCommand (start : Start) (args : List String) : Builtin := do
  match args with
  | [] => pure (some 0)
  | name :: rest =>
    let h ← lookAround
    match if name.toList.contains '/' then .ok name else placeOfProgram h name with
    | .ok place => become start place name rest
    | .error cause =>
      complain (name ++ ": " ++ programFault cause)
      leave (if cause == .noSuchEntry then 127 else 126)
    return some (← get).status

def loopCommand (flow : Nat → Flow) (args : List String) : Builtin := do
  let body (n : Nat) : Builtin := do
    let loops := min n (← get).loopDepth
    if loops != 0 then modify fun s => { s with flow := flow loops }
    pure (some 0)
  match args with
  | [] => body 1
  | text :: _ =>
    withNumber text fun n => if n == 0 then fails ("Illegal number: " ++ text) else body n

def returnCommand (args : List String) : Builtin := do
  let body (n : Nat) : Builtin := do
    modify fun s => { s with flow := .returning }
    pure (some n)
  match args with
  | [] => body (← get).status
  | text :: _ => withNumber text body

def exitCommand (args : List String) : Builtin := do
  let s ← get
  match args with
  | [] =>
    let status := s.trapStatus.getD s.status
    leave status
    pure (some status)
  | text :: _ =>
    withNumber text fun n => do
      leave (n % 256)
      pure (some (n % 256))

def commandCommand (args : List String) : Builtin :=
  withSwitches "pvV" "" args fun switches => do
    match switches.args, switches.letters.filter (·.1 != 'p') with
    | name :: _, letters@(_ :: _) =>
      let (text, status) ← describe (letters.getLast?.any (·.1 == 'V')) (switches.has 'p') name
      say text.toList status
    | _, _ => pure (some 0)

def timesCommand : Builtin :=
  say "0m0.000000s 0m0.000000s\n0m0.000000s 0m0.000000s\n".toList 0

def runBuiltin (start : Start) (go : Go) (manner : Manner) (name : String) (args : List String) :
    Builtin :=
  match name with
  | ":" | "true" => pure (some 0)
  | "false" => pure (some 1)
  | "." => dotCommand go args
  | "[" => testCommand true args
  | "test" => testCommand false args
  | "alias" => aliasCommand args
  | "bg" | "fg" => moveJobCommand args
  | "break" => loopCommand .breaking args
  | "continue" => loopCommand .continuing args
  | "cd" | "chdir" => cdCommand args
  | "command" => commandCommand args
  | "echo" => echoCommand args
  | "eval" => evalCommand go manner args
  | "exec" => execCommand start args
  | "exit" => exitCommand args
  | "export" => exportCommand args
  | "getopts" => getoptsCommand args
  | "hash" => hashCommand args
  | "jobs" => jobsCommand args
  | "kill" => killCommand args
  | "local" => localCommand args
  | "printf" => printCommand args
  | "pwd" => pwdCommand args
  | "read" => readCommand args
  | "readonly" => readonlyCommand args
  | "return" => returnCommand args
  | "set" => setCommand args
  | "shift" => shiftCommand args
  | "times" => timesCommand
  | "trap" => trapCommand args
  | "type" => typeCommand args
  | "ulimit" => ulimitCommand args
  | "umask" => umaskCommand args
  | "unalias" => unaliasCommand args
  | "unset" => unsetCommand args
  | "wait" => waitCommand args
  | _ => pure (some 0)

/-! ## Words -/

/-- A command that is about to run: its fields, with what stands in front of the command's own name
split off. -/
structure Called where
  fields : List String
  command : List String
  isIndirect : Bool

/-- What follows the word "command" and its switches; nothing if the word is the command itself, and
`none` within if more fields are needed to tell. -/
def behindCommandWord : (fields : List String) → Option (Option (List String))
  | [] => some none
  | field :: rest =>
    match field.toList with
    | ['-', '-'] => if rest.isEmpty then some none else some (some rest)
    | '-' :: c :: letters =>
      if (c :: letters).all (· == 'p') then behindCommandWord rest else none
    | _ => some (some (field :: rest))

/-- Replaces words by fields until the command's name is known; the words behind it are left. -/
def callOf (capture : Capture) (depth : Nat) : (steps : Nat) → List String → List Word →
    Code (Called × List Word)
  | 0, fields, words => pure (⟨fields, fields, false⟩, words)
  | steps + 1, fields, words => do
    let s ← get
    let rec strip (isIndirect : Bool) : (steps : Nat) → List String → Option (List String × Bool)
      | 0, fields => some (fields, isIndirect)
      | steps + 1, "command" :: rest =>
        if !isIndirect && (s.functions.lookup "command").isSome then
          some ("command" :: rest, isIndirect)
        else
          match behindCommandWord rest with
          | none => some ("command" :: rest, isIndirect)
          | some none => if words.isEmpty then some ("command" :: rest, isIndirect) else none
          | some (some rest) => strip true steps rest
      | _, fields => some (fields, isIndirect)
    let stripped := if fields.isEmpty && !words.isEmpty then none
      else strip false (fields.length + 1) fields
    match stripped, words with
    | some (command, isIndirect), _ => pure (⟨fields, command, isIndirect⟩, words)
    | none, word :: rest =>
      let more ← expandFields capture depth word
      if ← isRunning then callOf capture depth steps (fields ++ more) rest
      else pure (⟨[], [], false⟩, [])
    | none, [] => pure (⟨fields, fields, false⟩, [])

def assigningCommands : List String := ["export", "readonly", "local"]

def argumentsOf (capture : Capture) (depth : Nat) (assigns : Bool) : List Word →
    Code (List String)
  | [] => pure []
  | word :: rest => do
    let fields ← (do
      match if assigns then assignment? word else none with
      | some (name, value) => return [name ++ "=" ++ (← expandValue capture depth value)]
      | none => expandFields capture depth word : Code (List String))
    if ← isRunning then return fields ++ (← argumentsOf capture depth assigns rest) else pure []

/-- Carries out the assignments of a command, for the command alone if they are `local_`. The texts
are kept for a trace. -/
def carryOut (capture : Capture) (depth : Nat) (local_ exported : Bool) : List Word →
    Code (List String)
  | [] => pure []
  | word :: rest => do
    match assignment? word with
    | none => carryOut capture depth local_ exported rest
    | some (name, value) =>
      let text ← expandValue capture depth value
      if !(← isRunning) then return []
      if local_ then
        modify fun s =>
          match s.saved with
          | frame :: frames =>
            if frame.any (·.1 == name) then s
            else { s with saved := ((name, s.binding? name) :: frame) :: frames }
          | [] => s
      assignOrLeave name text
      if !(← isRunning) then return []
      if local_ || exported then
        modify fun s => s.bind name { (s.binding? name).getD ⟨none, true, false⟩ with
          exported := true }
      return (name ++ "=" ++ text) :: (← carryOut capture depth local_ exported rest)

/-- Shows a command before it runs, if that is asked for, where complaints go when nothing is
rerouted. -/
def trace (kept : List KeptStream) (assignments fields : List String) : Code Unit := do
  let s ← get
  if s.hasOption 'x' && !s.isTracing then
    let front := (s.valueNamed? "PS4").getD "+ "
    let text := front ++ " ".intercalate (assignments ++ fields) ++ "\n"
    let stream := match kept.find? (·.stream == 2) with
      | some ⟨_, some spare⟩ => spare
      | _ => 2
    let _ ← Task.write stream (bytesOf text)

/-! ## The whole command -/

/-- Runs a command of the shell under its name. One that fails has the status two, and if it is a
special one that was called directly, it takes the shell down. -/
def runOwn (start : Start) (go : Go) (manner : Manner) (called : Called) (name : String)
    (args : List String) : Code Unit := do
  let speaker := (← get).speaker
  modify fun s => { s with speaker := some name }
  let result ← runBuiltin start go manner name args
  modify fun s => { s with speaker := speaker }
  match result with
  | some status => modify fun s => if s.flow == .exited then s else s.withStatus status
  | none =>
    setStatus 2
    if isSpecial name && !called.isIndirect then leave 2

def runSimple (start : Start) (go : Go) (depth : Nat) (manner : Manner) (line : Nat)
    (assignments words : List Word) (redirections : List Redirection) : Code Unit := do
  Task.spend commandTime
  modify fun s => { s with line := line, outputStatus := 0 }
  let capture := captureWith go
  let (called, rest) ← callOf capture depth (words.length + 1) [] words
  if !(← isRunning) then return
  let name := called.command.headD ""
  let s ← get
  let function? := if called.isIndirect then none else s.functions.lookup name
  let isOwn := function?.isNone && isBuiltin name
  let more ← argumentsOf capture depth (isOwn && assigningCommands.contains name) rest
  if !(← isRunning) then return
  let args := called.command.tail ++ more
  let isNothing := called.command.isEmpty
  let keepsVariables := isNothing || (isOwn && isSpecial name && !called.isIndirect)
  let routes ← routesOf capture depth redirections
  if !(← isRunning) then return
  let (kept, opened) ← followAll routes []
  if !opened then
    putBack kept
    setStatus 2
    if isOwn && isSpecial name && !called.isIndirect then leave 2
  else
    let framed := !keepsVariables && (!assignments.isEmpty || function?.isSome)
    if framed then modify fun s => { s with saved := [] :: s.saved }
    let texts ← carryOut capture depth framed (name == "exec" && isOwn && !args.isEmpty) assignments
    if ← isRunning then
      trace kept texts (called.fields ++ more)
      if isNothing then modify fun s => s.withStatus s.outputStatus
      else
        match function? with
        | some body => runFunction go manner body args
        | none =>
          if isOwn then runOwn start go manner called name args
          else runProgram start go manner name args
    if framed then dropLocals
    if name == "exec" && isOwn then forgetKept kept else putBack kept

end TranscodingEngines.Script
