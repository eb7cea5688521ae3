import TranscodingEngines.Host.Script.Builtin.Variables

/-!
# Commands about directories and modes

The shell remembers the name by which it came to its working directory. Two dots in the path that it
is sent along drop the last step of that name, unless the way through the real directories is asked
for.
-/

set_option autoImplicit false

namespace TranscodingEngines.Script

/-- The path that leads from a directory along another path, without dots. Exactly two slashes at the
front stay. -/
def logicalPath (directory path : String) : String :=
  let steps (text : String) : List String :=
    ((splitWhere (· == '/') text.toList).map String.ofList).filter (!·.isEmpty)
  let start := if path.startsWith "/" then [] else (steps directory).reverse
  let found := (steps path).foldl (fun found step =>
    if step == "." then found else if step == ".." then found.drop 1 else step :: found) start
  let base := if path.startsWith "/" then path else directory
  let front := if base.startsWith "//" && !base.startsWith "///" then "//" else "/"
  front ++ "/".intercalate found.reverse

def goTo (physically : Bool) (path : String) : Code Bool := do
  let view ← Task.look
  let s ← get
  let logical := logicalPath s.directory path
  let target := if physically then path else logical
  match view.host.find ⟨ofRaw target⟩ with
  | .ok (at_, .directory permissions) =>
    if !view.host.caller.maySearch permissions then pure false
    else
      Task.enter at_
      let name := if physically then toRaw (Host.pathOf at_).text else logical
      let before := s.directory
      modify fun s => { s with directory := name }
      let export_ (name value : String) : Code Unit :=
        modify fun s => s.bind name ⟨some value, true, false⟩
      export_ "OLDPWD" before
      export_ "PWD" name
      pure true
  | _ => pure false

def cdCommand (args : List String) : Builtin :=
  withSwitches "LP" "" args fun switches => do
    let s ← get
    let physically := switches.letters.getLast?.map (·.1) == some 'P'
    let (wanted, shows) := match switches.args.head? with
      | none => ((s.valueNamed? "HOME").getD "", false)
      | some "-" => ((s.valueNamed? "OLDPWD").getD "", true)
      | some path => (path, false)
    let first := ((splitWhere (· == '/') wanted.toList).head?.map String.ofList).getD ""
    let isPlain := !wanted.startsWith "/" && first != "." && first != ".."
    let wanted := if wanted.isEmpty then "." else wanted
    let view ← Task.look
    let places := if isPlain then (s.valueNamed? "CDPATH").getD "" else ""
    let candidates := ((splitWhere (· == ':') places.toList).map String.ofList).map fun place =>
      if place.isEmpty then (wanted, false) else (place ++ "/" ++ wanted, true)
    let (path, isElsewhere) :=
      (candidates.find? fun c => view.host.isDirectory ⟨ofRaw c.1⟩).getD (wanted, false)
    if ← goTo physically path then
      if shows || isElsewhere then say ((← get).directory ++ "\n").toList 0 else pure (some 0)
    else fails ("can't cd to " ++ wanted)

def pwdCommand (args : List String) : Builtin :=
  withSwitches "LP" "" args fun switches => do
    let view ← Task.look
    let isPhysical := switches.letters.getLast?.map (·.1) == some 'P'
    let s ← get
    let name := if isPhysical then toRaw view.host.workingDirectory.text else s.directory
    say (name ++ "\n").toList 0

def octal (n : Nat) : String :=
  let digits := Nat.toDigits 8 n
  String.ofList (List.replicate (4 - digits.length) '0' ++ digits)

/-- The bits that a letter of a symbolic mode stands for, once for all three kinds of users. -/
def modeBits (letter : Char) : Nat :=
  match letter with
  | 'r' => 0o444
  | 'w' => 0o222
  | 'x' => 0o111
  | _ => 0

def userBits (letter : Char) : Nat :=
  match letter with
  | 'u' => 0o700
  | 'g' => 0o070
  | 'o' => 0o007
  | _ => 0o777

/-- A mode after one clause of a symbolic mode; nothing if the clause is malformed. `mask` holds
back bits where no users are named. -/
def applyClause (isDirectory : Bool) (mask mode : Nat) (clause : List Char) : Option Nat :=
  let users := clause.takeWhile "ugoa".toList.contains
  let who := users.foldl (fun bits c => bits ||| userBits c) 0
  let scope := if users.isEmpty then 0o777 &&& (0o777 ^^^ (mask &&& 0o777)) else who
  let rec go (mode : Nat) : (steps : Nat) → List Char → Option Nat
    | 0, _ => none
    | _, [] => some mode
    | steps + 1, op :: rest =>
      if op != '+' && op != '-' && op != '=' then none
      else
        let letters := rest.takeWhile "rwxXstugo".toList.contains
        let runnable := isDirectory || mode &&& 0o111 != 0
        let own := letters.foldl (fun bits c =>
          bits ||| (if c == 'X' then if runnable then 0o111 else 0
            else if c == 'u' then (mode / 64 % 8) * 0o111
            else if c == 'g' then (mode / 8 % 8) * 0o111
            else if c == 'o' then (mode % 8) * 0o111
            else modeBits c)) 0
        let wide := (letters.contains 's', letters.contains 't')
        let extra := (if wide.1 && who &&& 0o700 != 0 || wide.1 && users.isEmpty then 0o4000 else 0)
          ||| (if wide.1 && who &&& 0o070 != 0 || wide.1 && users.isEmpty then 0o2000 else 0)
          ||| (if wide.2 then 0o1000 else 0)
        let bits := (own &&& scope) ||| extra
        let cleared := mode &&& (0o7777 ^^^ (if op == '-' then bits
          else if op == '=' then (if users.isEmpty then 0o777 else who) else 0))
        go (if op == '-' then cleared else cleared ||| bits) steps (rest.drop letters.length)
  match clause.drop users.length with
  | [] => none
  | ops => go mode (ops.length + 1) ops

def applyModes (isDirectory : Bool) (mask mode : Nat) (text : String) : Option Nat :=
  (splitWhere (· == ',') text.toList).foldl (fun found clause =>
    found.bind fun mode => applyClause isDirectory mask mode clause) (some mode)

def octalMode? (text : String) : Option Nat :=
  match splitDigits 8 text.toList with
  | (digits, []) => if digits.isEmpty then none else some (digitsValue 8 digits)
  | _ => none

/-- Sets or shows the bits that new files do not get. -/
def umaskCommand (args : List String) : Builtin :=
  withSwitches "S" "" args fun switches => do
    let mask := (← Task.look).umask
    match switches.args with
    | [] =>
      if switches.has 'S' then
        let part (letter : String) (bits : Nat) : String :=
          let allowed := 7 - bits % 8
          letter ++ "=" ++ (if allowed / 4 % 2 == 1 then "r" else "")
            ++ (if allowed / 2 % 2 == 1 then "w" else "") ++ (if allowed % 2 == 1 then "x" else "")
        say (part "u" (mask / 64) ++ "," ++ part "g" (mask / 8) ++ "," ++ part "o" mask
          ++ "\n").toList 0
      else say (octal mask ++ "\n").toList 0
    | text :: _ =>
      if text.toList.head?.any Char.isDigit then
        match octalMode? text with
        | some n =>
          Task.mask (n % 512)
          pure (some 0)
        | none => fails ("Illegal number: " ++ text)
      else
        match applyModes false 0 (0o777 - mask % 512) text with
        | some mode =>
          Task.mask (0o777 - mode % 512)
          pure (some 0)
        | none => fails ("Illegal mode: " ++ text)

def ulimitCommand (args : List String) : Builtin :=
  withSwitches "HSatfdscmlpnvwr" "" args fun switches => do
    match switches.args with
    | [] => say "unlimited\n".toList 0
    | limit :: _ =>
      if limit == "unlimited" || (plainNumber? limit).isSome then pure (some 0)
      else fails "bad number"

end TranscodingEngines.Script
