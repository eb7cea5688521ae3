import TranscodingEngines.Host.Script.Tool.Basic
import TranscodingEngines.Host.Script.Tool.Regex

/-!
# Expressions of words

Each argument is an operand or an operator. Numbers are words of digits and have no limit. What
stands behind an operator that no longer matters is read but not judged.
-/

set_option autoImplicit false

namespace TranscodingEngines.Script

inductive ExprFault where
  | missing (last : String)
  | unexpected (argument : String)
  | expectsClosing (last : String)
  | closingInstead (argument : String)
  | notNumber
  | divisionByZero
  | pattern (fault : RegexFault)

def ExprFault.message : ExprFault → String
  | missing last => "syntax error: missing argument after '" ++ last ++ "'"
  | unexpected argument => "syntax error: unexpected argument '" ++ argument ++ "'"
  | expectsClosing last => "syntax error: expecting ')' after '" ++ last ++ "'"
  | closingInstead argument => "syntax error: expecting ')' instead of '" ++ argument ++ "'"
  | notNumber => "non-integer argument"
  | divisionByZero => "division by zero"
  | pattern fault => fault.message

/-- What reading has come to: the arguments left, and the last one that was taken. -/
structure ExprState where
  rest : List String
  last : String

abbrev ExprReading := StateT ExprState (Except ExprFault)

def wordNumber? (text : String) : Option Int :=
  match text.toList with
  | '-' :: digits => (plainNumber? (String.ofList digits)).map fun n => -(n : Int)
  | _ => (plainNumber? text).map fun n => (n : Int)

def isEmptyWord (text : String) : Bool :=
  text.isEmpty || (wordNumber? text == some 0)

def takeWord (words : List String) : ExprReading (Option String) := fun s =>
  match s.rest with
  | word :: rest => if words.contains word then .ok (some word, ⟨rest, word⟩) else .ok (none, s)
  | [] => .ok (none, s)

def needWord : ExprReading String := fun s =>
  match s.rest with
  | word :: rest => .ok (word, ⟨rest, word⟩)
  | [] => .error (.missing s.last)

def calculateWords (sign a b : String) : Except ExprFault String :=
  match wordNumber? a, wordNumber? b with
  | some x, some y =>
    match sign with
    | "+" => .ok (toString (x + y))
    | "-" => .ok (toString (x - y))
    | "*" => .ok (toString (x * y))
    | _ =>
      if y == 0 then .error .divisionByZero
      else .ok (toString (if sign == "/" then Int.tdiv x y else Int.tmod x y))
  | _, _ => .error .notNumber

def compareWords (sign a b : String) : Bool :=
  let order := match wordNumber? a, wordNumber? b with
    | some x, some y => compare x y
    | _, _ => compare a b
  match sign with
  | "<" => order == .lt
  | "<=" => order != .gt
  | "=" | "==" => order == .eq
  | "!=" => order != .eq
  | ">=" => order != .lt
  | _ => order == .gt

/-- What the front of a word says to an expression: the part in its group, or how long it is. -/
def matchWord (word pattern : String) : Except ExprFault String :=
  match Regex.read false pattern.toList with
  | .error fault => .error (.pattern fault)
  | .ok regex =>
    let hasGroup := "\\(".toList.isPrefixOf pattern.toList
      || (endsOf pattern.toList).any fun rest => "\\(".toList.isPrefixOf rest
    match regex.findAtFront? word.toList with
    | some found =>
      if hasGroup then .ok (String.ofList ((found.part word.toList 1).getD []))
      else .ok (toString found.stop)
    | none => .ok (if hasGroup then "" else "0")

mutual

def readRank : (steps : Nat) → (rank : Nat) → (judges : Bool) → ExprReading String
  | 0, _, _ => pure ""
  | steps + 1, rank, judges => do
    if rank == 6 then readOperand steps judges
    else
      let first ← readRank steps (rank + 1) judges
      continueRank steps rank judges first

def continueRank : (steps : Nat) → (rank : Nat) → (judges : Bool) → (value : String) →
    ExprReading String
  | 0, _, _, value => pure value
  | steps + 1, rank, judges, value => do
    let signs := match rank with
      | 0 => ["|"]
      | 1 => ["&"]
      | 2 => ["<", "<=", "=", "==", "!=", ">=", ">"]
      | 3 => ["+", "-"]
      | 4 => ["*", "/", "%"]
      | _ => [":"]
    match ← takeWord signs with
    | none => pure value
    | some sign =>
      let isEmpty := isEmptyWord value
      let judgesNext := judges && (if rank == 0 then isEmpty else if rank == 1 then !isEmpty else true)
      let other ← readRank steps (rank + 1) judgesNext
      let result : Except ExprFault String :=
        match rank with
        | 0 =>
          .ok (if !isEmpty then value else if isEmptyWord other then "0" else other)
        | 1 => .ok (if isEmpty || isEmptyWord other then "0" else value)
        | 2 => .ok (if compareWords sign value other then "1" else "0")
        | 5 => if judges then matchWord value other else .ok value
        | _ => if judges then calculateWords sign value other else .ok value
      continueRank steps rank judges (← result)

def readOperand : (steps : Nat) → (judges : Bool) → ExprReading String
  | 0, _ => pure ""
  | steps + 1, judges => do
    let word ← needWord
    let inner : ExprReading String := readRank steps 6 judges
    match word with
    | "+" => needWord
    | "(" =>
      let value ← readRank steps 0 judges
      match (← get).rest with
      | ")" :: rest =>
        set (⟨rest, ")"⟩ : ExprState)
        pure value
      | other :: _ => throw (.closingInstead other)
      | [] => throw (.expectsClosing (← get).last)
    | ")" => throw (.unexpected ")")
    | "length" => return toString (← inner).length
    | "match" =>
      let text ← inner
      let pattern ← inner
      if judges then matchWord text pattern else pure ""
    | "index" =>
      let text ← inner
      let wanted ← inner
      let place := text.toList.findIdx? wanted.toList.contains
      pure (toString ((place.map (· + 1)).getD 0))
    | "substr" =>
      let text ← inner
      let start ← inner
      let length ← inner
      match wordNumber? start, wordNumber? length with
      | some start, some length =>
        if start ≤ 0 || length ≤ 0 then pure ""
        else pure (String.ofList ((text.toList.drop (start.toNat - 1)).take length.toNat))
      | _, _ => pure ""
    | word => pure word

end

def exprValue (args : List String) : Except ExprFault String := do
  let (value, s) ← (readRank (10 * args.length + 20) 0 true).run ⟨args, ""⟩
  match s.rest with
  | [] => pure value
  | other :: _ => throw (.unexpected other)

/-- Writes the value of an expression; the status says whether it is empty or zero. -/
def exprTool : Tool := fun call =>
  let args := match call.args with
    | "--" :: rest => rest
    | args => args
  if args.isEmpty then call.misuse "missing operand" 2
  else
    match exprValue args with
    | .ok value => call.finish (ended value.toList) (if isEmptyWord value then 1 else 0)
    | .error fault => do
      call.complain fault.message
      pure 2

end TranscodingEngines.Script
