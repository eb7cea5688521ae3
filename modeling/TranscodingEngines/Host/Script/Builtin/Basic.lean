import TranscodingEngines.Host.Script.Expansion
import TranscodingEngines.Host.Script.Printing
import TranscodingEngines.Host.Script.Condition
import TranscodingEngines.Host.Script.Reader

/-!
# Commands of the shell itself

A command of the shell ends with a status, or it fails with a complaint. A command that fails has
the status two, and some commands take the whole shell down with them when they fail. Switches in
front of the arguments are read in the same way for most commands.
-/

set_option autoImplicit false

namespace TranscodingEngines.Script

abbrev Builtin := Code (Option Nat)

def fails (text : String) : Builtin := do
  complain text
  pure none

def say (chars : List Char) (status : Nat) : Builtin := do
  match ← Task.write 1 (rawBytes chars) with
  | .ok () => pure (some status)
  | .error _ =>
    complain (((← get).speaker.getD "") ++ ": I/O error")
    pure (some (status ||| 1))

/-- Switches in front of arguments: the letters with their values, and the arguments behind them. -/
structure Switches where
  letters : List (Char × String)
  args : List String

def Switches.has (s : Switches) (letter : Char) : Bool := s.letters.any (·.1 == letter)

/-- Reads the letters of one argument: those found, and whether the next argument is the value of the
last one. -/
def switchLetters (known withValue : List Char) : List Char →
    Except Char (List (Char × String) × Option Char)
  | [] => .ok ([], none)
  | c :: rest =>
    if withValue.contains c then
      if rest.isEmpty then .ok ([], some c) else .ok ([(c, String.ofList rest)], none)
    else if known.contains c then do
      let (letters, wanting) ← switchLetters known withValue rest
      pure ((c, "") :: letters, wanting)
    else .error c

def readSwitches (known withValue : String) : List String → Except String Switches
  | [] => .ok ⟨[], []⟩
  | arg :: rest =>
    match arg.toList with
    | ['-', '-'] => .ok ⟨[], rest⟩
    | '-' :: c :: letters => do
      match switchLetters known.toList withValue.toList (c :: letters) with
      | .error c => throw ("Illegal option -" ++ String.singleton c)
      | .ok (found, none) =>
        let more ← readSwitches known withValue rest
        pure ⟨found ++ more.letters, more.args⟩
      | .ok (found, some c) =>
        match rest with
        | [] => throw ("No arg for -" ++ String.singleton c ++ " option")
        | value :: rest =>
          let more ← readSwitches known withValue rest
          pure ⟨found ++ (c, value) :: more.letters, more.args⟩
    | _ => .ok ⟨[], arg :: rest⟩

def withSwitches (known withValue : String) (args : List String)
    (body : Switches → Builtin) : Builtin :=
  match readSwitches known withValue args with
  | .ok switches => body switches
  | .error text => fails text

def smallNumber? (text : String) : Option Nat :=
  match wholeNumber? true text with
  | some n => if 0 ≤ n && n ≤ 2147483647 then some n.toNat else none
  | none => none

def withNumber (text : String) (body : Nat → Builtin) : Builtin :=
  match smallNumber? text with
  | some n => body n
  | none => fails ("Illegal number: " ++ text)

/-- Runs of apostrophes stand between quotation marks, and everything else between apostrophes. -/
def quotedParts (steps : Nat) (cs : List Char) : List Char :=
  match steps with
  | 0 => []
  | steps + 1 =>
    let plain := cs.takeWhile (· != '\'')
    let rest := cs.drop plain.length
    let marks := rest.takeWhile (· == '\'')
    let after := rest.drop marks.length
    let front := '\'' :: plain ++ ['\'']
    if marks.isEmpty then front
    else
      let front := front ++ '"' :: marks ++ ['"']
      if after.isEmpty then front else front ++ quotedParts steps after

def shellQuoted (text : String) : String :=
  String.ofList (quotedParts (text.length + 1) text.toList)

def plainCommands : List String :=
  ["[", "alias", "bg", "cd", "chdir", "command", "echo", "false", "fg", "getopts", "hash", "jobs",
    "kill", "printf", "pwd", "read", "test", "true", "type", "ulimit", "umask", "unalias", "wait"]

def isSpecial (name : String) : Bool := specialCommands.contains name || name == "local"

def isBuiltin (name : String) : Bool := isSpecial name || plainCommands.contains name

def echoCommand (args : List String) : Builtin := say (echoed args) 0

def ValueFault.message : ValueFault → String
  | notNumeric value => value ++ ": expected numeric value"
  | leftover value => value ++ ": not completely converted"
  | outOfRange value => value ++ ": Numerical result out of range"

def printCommand (args : List String) : Builtin :=
  withSwitches "" "" args fun switches => do
    match switches.args with
    | [] => fails "usage: printf format [arg ...]"
    | format :: values =>
      let (printout, stop) := printFormatted .shell format values
      for fault in printout.faults.reverse do
        complain fault.message
      let status := if printout.faults.isEmpty then 0 else 1
      let written := printout.written.reverse
      match stop with
      | some .missingKind =>
        complain "missing format character"
        let _ ← say written status
        pure none
      | some (.unknownKind directive) =>
        complain (directive ++ ": invalid directive")
        let _ ← say written status
        pure none
      | _ => say written status

def testCommand (isBracket : Bool) (args : List String) : Builtin := do
  match shellCondition (← Task.look) isBracket args with
  | .ok true => pure (some 0)
  | .ok false => pure (some 1)
  | .error fault => fails (fault.message true)

end TranscodingEngines.Script
