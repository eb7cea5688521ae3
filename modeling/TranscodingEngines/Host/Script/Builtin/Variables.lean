import TranscodingEngines.Host.Script.Builtin.Basic

/-!
# Commands about variables, arguments and options
-/

set_option autoImplicit false

namespace TranscodingEngines.Script

/-! ## Variables -/

/-- The name in front of the equals sign of an argument, and the value behind it if there is one. -/
def splitAssignment (arg : String) : String × Option String :=
  let name := arg.toList.takeWhile (· != '=')
  match arg.toList.drop name.length with
  | [] => (arg, none)
  | _ :: value => (String.ofList name, some (String.ofList value))

def withName (name : String) (body : Builtin) : Builtin :=
  if isName name.toList then body else fails (name ++ ": bad variable name")

/-- Carries out something for each argument as long as nothing fails. -/
def forEach (args : List String) (body : String → Builtin) : Builtin :=
  match args with
  | [] => pure (some 0)
  | arg :: rest => do
    match ← body arg with
    | none => pure none
    | some _ => forEach rest body

/-- Variables in the form in which the shell could read them, sorted by name. -/
def listing (front : String) (shown : List (String × Binding)) : List Char :=
  let sorted := shown.mergeSort fun a b => a.1 ≤ b.1
  sorted.flatMap fun v =>
    let front := if front.isEmpty then "" else front ++ " "
    match v.2.value with
    | some value => (front ++ v.1 ++ "=" ++ shellQuoted value ++ "\n").toList
    | none => (front ++ v.1 ++ "\n").toList

def markCommand (name : String) (isMarked : Binding → Bool) (mark : Binding → Binding)
    (args : List String) : Builtin :=
  withSwitches "p" "" args fun switches => do
    if switches.args.isEmpty || switches.has 'p' then
      say (listing name ((← get).variables_.filter fun v => isMarked v.2)) 0
    else
      forEach switches.args fun arg =>
        let (name, value) := splitAssignment arg
        withName name do
          let marked : Code Unit := modify fun s =>
            s.bind name (mark ((s.binding? name).getD ⟨none, false, false⟩))
          match value with
          | none =>
            marked
            pure (some 0)
          | some value =>
            if ← assign name value then
              marked
              pure (some 0)
            else pure none

def exportCommand (args : List String) : Builtin :=
  markCommand "export" (·.exported) (fun b => { b with exported := true }) args

def readonlyCommand (args : List String) : Builtin :=
  markCommand "readonly" (·.readOnly) (fun b => { b with readOnly := true }) args

def unsetCommand (args : List String) : Builtin :=
  withSwitches "vf" "" args fun switches => do
    let last := switches.letters.getLast?.map (·.1)
    forEach switches.args fun name => do
      if last == some 'f' then
        modify fun s => { s with functions := s.functions.filter (·.1 != name) }
        pure (some 0)
      else
        withName name do
          if (← get).isReadOnly name then fails (name ++ ": is read only")
          else
            modify (·.unbind name)
            pure (some 0)

def localCommand (args : List String) : Builtin := do
  let s ← get
  match s.saved with
  | [] => fails "not in a function"
  | _ =>
    forEach args fun arg => do
      let (name, value) := splitAssignment arg
      if name == "-" then return some 0
      withName name do
        modify fun s =>
          match s.saved with
          | frame :: rest =>
            if frame.any (·.1 == name) then s
            else { s with saved := ((name, s.binding? name) :: frame) :: rest }
          | [] => s
        match value with
        | none => pure (some 0)
        | some value => if ← assign name value then pure (some 0) else pure none

/-! ## Reading -/

/-- Reads a line up to its line feed. A backslash keeps the character behind it from separating
fields, and joins lines. The spans are those that may be cut; the truth says whether the line was
ended. -/
def readLine (isRaw : Bool) : (steps : Nat) → List Span → Code (List Span × Bool)
  | 0, found => pure (found.reverse, false)
  | steps + 1, found => do
    match ← Task.read 0 65536 (some 10) with
    | .error _ => pure (found.reverse, false)
    | .ok [] => pure (found.reverse, false)
    | .ok bytes =>
      let chars := (rawChars bytes).filter (· != '\x00')
      if isRaw then
        let ends := chars.getLast? == some '\n'
        let body := if ends then chars.dropLast else chars
        let found := ⟨.atSeparators, marksOf false body⟩ :: found
        if ends then pure (found.reverse, true) else readLine isRaw steps found
      else
        let rec cut (plain : List Mark) (found : List Span) :
            List Char → List Span × Option Bool
          | [] => (⟨.atSeparators, plain.reverse⟩ :: found, none)
          | ['\n'] => (⟨.atSeparators, plain.reverse⟩ :: found, some true)
          | ['\\', '\n'] => (⟨.atSeparators, plain.reverse⟩ :: found, none)
          | ['\\'] => (⟨.atSeparators, plain.reverse⟩ :: found, some false)
          | '\\' :: c :: rest =>
            cut [] (⟨.uncut, [.char c true]⟩ :: ⟨.atSeparators, plain.reverse⟩ :: found) rest
          | c :: rest => cut (.char c false :: plain) found rest
        match cut [] found chars with
        | (found, none) => readLine isRaw steps found
        | (found, some true) => pure (found.reverse, true)
        | (found, some false) => do
          match ← Task.read 0 1 none with
          | .ok [b] =>
            if b == 10 then readLine isRaw steps found
            else readLine isRaw steps (⟨.uncut, [.char (Char.ofNat b.toNat) true]⟩ :: found)
          | _ => pure (found.reverse, false)

/-- Gives variables the fields of a line; those for which there is none get nothing. -/
def fillVariables : List String → List String → Builtin
  | [], _ => pure (some 0)
  | name :: names, fields =>
    withName name do
      if ← assign name (fields.headD "") then fillVariables names fields.tail else pure none

/-- Reads a line of input into variables; the last one takes what is left of the line. -/
def readCommand (args : List String) : Builtin :=
  withSwitches "r" "p" args fun switches => do
    if switches.args.isEmpty then fails "arg count"
    else
      let (spans, ended) ← readLine (switches.has 'r') 10000 []
      let s ← get
      let fields := cutFields s.separators (some switches.args.length) spans
      match ← fillVariables switches.args (fields.map textOf) with
      | none => pure none
      | some _ => pure (some (if ended then 0 else 1))

/-! ## Arguments -/

def shiftCommand (args : List String) : Builtin := do
  let body (n : Nat) : Builtin := do
    if (← get).args.length < n then fails "can't shift that many"
    else
      modify fun s => { s with args := s.args.drop n, optionArgument := 1, optionLetter := 0 }
      pure (some 0)
  match args with
  | [] => body 1
  | n :: _ => withNumber n body

structure OptionFound where
  letter : Char
  value : Option String
  argument : Nat
  position : Nat
  status : Nat
  complaint : Option String

def nextOption (options : List Char) (args : List String) (argument position : Nat) : OptionFound :=
  let isQuiet := options.head? == some ':'
  let known := if isQuiet then options.drop 1 else options
  let current := (args[argument - 1]?).getD ""
  let inside := position != 0 && position < current.length
  let argument := if position != 0 && !inside then argument + 1 else argument
  let current := if inside then current else (args[argument - 1]?).getD ""
  let position := if inside then position else 1
  let ends : Bool := current == "--" || !current.startsWith "-" || current.length < 2
  if !inside && ends then
    ⟨'?', none, if current == "--" then argument + 1 else argument, 0, 1, none⟩
  else
    let c := current.toList.getD position '?'
    let isLast := current.length ≤ position + 1
    let after := if isLast then (argument + 1, 0) else (argument, position + 1)
    match known.dropWhile (· != c) with
    | [] =>
      if isQuiet then ⟨'?', some (String.singleton c), after.1, after.2, 0, none⟩
      else ⟨'?', none, after.1, after.2, 0, some ("Illegal option -" ++ String.singleton c)⟩
    | _ :: rest =>
      if rest.head? != some ':' then ⟨c, some "", after.1, after.2, 0, none⟩
      else if !isLast then
        ⟨c, some (String.ofList (current.toList.drop (position + 1))), argument + 1, 0, 0, none⟩
      else
        match args[argument]? with
        | some value => ⟨c, some value, argument + 2, 0, 0, none⟩
        | none =>
          if isQuiet then ⟨':', some (String.singleton c), argument + 1, 0, 0, none⟩
          else
            ⟨'?', none, argument + 1, 0, 0,
              some ("No arg for -" ++ String.singleton c ++ " option")⟩

def getoptsCommand (args : List String) : Builtin := do
  match args with
  | options :: name :: rest =>
    let s ← get
    let all := if rest.isEmpty then s.args else rest
    let found := nextOption options.toList all s.optionArgument s.optionLetter
    if let some text := found.complaint then writeComplaint (text ++ "\n")
    match found.value with
    | some value => modify (·.put "OPTARG" value)
    | none => if found.status == 0 then modify (·.unbind "OPTARG")
    let shown := if found.position == 0 then found.argument else found.argument + 1
    modify (·.put "OPTIND" (toString shown))
    modify fun s => { s with optionArgument := found.argument, optionLetter := found.position }
    withName name do
      if ← assign name (String.singleton found.letter) then pure (some found.status)
      else pure none
  | _ => fails "Usage: getopts optstring var [arg...]"

/-! ## Options -/

def optionNames : List (String × Option Char) :=
  [("errexit", 'e'), ("noglob", 'f'), ("ignoreeof", 'I'), ("interactive", 'i'), ("monitor", 'm'),
    ("noexec", 'n'), ("stdin", 's'), ("xtrace", 'x'), ("verbose", 'v'), ("vi", 'V'),
    ("emacs", 'E'), ("noclobber", 'C'), ("allexport", 'a'), ("notify", 'b'), ("nounset", 'u'),
    ("privileged", 'p'), ("nolog", none), ("debug", none)]

def setOption (s : Shell) (letter : Char) (on : Bool) : Shell :=
  let others := s.options.filter (· != letter)
  { s with options := if on then letter :: others else others }

def optionListing (s : Shell) (asCommands : Bool) : List Char :=
  let line (option : String × Option Char) : String :=
    let on := option.2.any s.hasOption
    if asCommands then "set " ++ (if on then "-o " else "+o ") ++ option.1 ++ "\n"
    else
      let padding := String.ofList (List.replicate (16 - option.1.length) ' ')
      option.1 ++ padding ++ (if on then "on" else "off") ++ "\n"
  let front := if asCommands then "" else "Current option settings\n"
  (front ++ String.join (optionNames.map line)).toList

/-- Sets options by the letters of an argument; the arguments that are left, or what is wrong. -/
def setLetters (on : Bool) : List Char → List String → StateT Shell (Except String) (List String)
  | [], args => pure args
  | 'o' :: letters, args => do
    match args with
    | [] => setLetters on letters []
    | name :: args =>
      match optionNames.lookup name with
      | some letter =>
        modify fun s => letter.elim s fun letter => setOption s letter on
        setLetters on letters args
      | none => throw ("Illegal option -o " ++ name)
  | c :: letters, args => do
    if optionNames.any (·.2 == some c) then
      modify fun s => setOption s c on
      setLetters on letters args
    else throw ("Illegal option -" ++ String.singleton c)

def setFrom : (steps : Nat) → List String → StateT Shell (Except String) Unit
  | 0, _ => pure ()
  | steps + 1, args => do
    let rename (args : List String) : StateT Shell (Except String) Unit :=
      modify fun s => { s with args := args, optionArgument := 1, optionLetter := 0 }
    match args with
    | [] => pure ()
    | "-" :: rest =>
      modify fun s => setOption (setOption s 'x' false) 'v' false
      if !rest.isEmpty then rename rest
    | "--" :: rest => rename rest
    | first :: rest =>
      match first.toList with
      | '-' :: letters => setFrom steps (← setLetters true letters rest)
      | '+' :: letters => setFrom steps (← setLetters false letters rest)
      | _ => rename args

/-- Switches job control off again if it was asked for; it takes a terminal. -/
def refuseJobControl (isAsked : Bool) : Code Unit := do
  if isAsked || (← get).hasOption 'm' then
    complain "can't access tty; job control turned off"
    modify fun s => setOption s 'm' false

def setCommand (args : List String) : Builtin := do
  let s ← get
  match args with
  | [] => say (listing "" (s.variables_.filter (·.2.value.isSome))) 0
  | ["-o"] => say (optionListing s false) 0
  | ["+o"] => say (optionListing s true) 0
  | args =>
    match (setFrom (args.length + 1) args).run s with
    | .ok ((), s) =>
      set s
      refuseJobControl false
      pure (some 0)
    | .error text => fails text

end TranscodingEngines.Script
