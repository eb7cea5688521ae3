import TranscodingEngines.Host.Script.Octets

/-!
# Calculations

Calculations use whole numbers of 64 bits with sign, which wrap around, and the usual operators with
their usual ranks. Variables can be read and assigned. What need not be known is read but not
calculated: the second side of a decided "and" or "or", and the other branch of a condition.
-/

set_option autoImplicit false

namespace TranscodingEngines.Script

/-! ## Numbers in texts -/

/-- The number within 64 bits that equals a number modulo 2 to the power of 64. -/
def wrapped (n : Int) : Int := Int.bmod n 18446744073709551616

def digitValue? (base : Nat) (c : Char) : Option Nat :=
  let value :=
    if c.isDigit then c.toNat - '0'.toNat
    else if c.isLower then c.toNat - 'a'.toNat + 10
    else if c.isUpper then c.toNat - 'A'.toNat + 10
    else base
  if value < base then some value else none

def splitDigits (base : Nat) : List Char → List Nat × List Char
  | [] => ([], [])
  | c :: rest =>
    match digitValue? base c with
    | some d =>
      let (digits, rest) := splitDigits base rest
      (d :: digits, rest)
    | none => ([], c :: rest)

def digitsValue (base : Nat) (digits : List Nat) : Nat :=
  digits.foldl (fun n d => n * base + d) 0

/-- A number without sign at the front, decimal, octal behind a zero, or hexadecimal behind `0x`,
and what follows it; nothing if there is no number. -/
def splitNumber (cs : List Char) : Option (Nat × List Char) :=
  match cs with
  | '0' :: x :: rest =>
    if x == 'x' || x == 'X' then
      match splitDigits 16 rest with
      | ([], _) => some (0, x :: rest)
      | (digits, rest) => some (digitsValue 16 digits, rest)
    else
      let (digits, rest) := splitDigits 8 cs
      some (digitsValue 8 digits, rest)
  | _ =>
    match splitDigits 10 cs with
    | ([], _) => none
    | (digits, rest) => some (digitsValue 10 digits, rest)

def splitSigned (decimal : Bool) (cs : List Char) : Option (Int × List Char) :=
  let cs := cs.dropWhile isWhite
  let magnitude (cs : List Char) : Option (Nat × List Char) :=
    if decimal then
      match splitDigits 10 cs with
      | ([], _) => none
      | (digits, rest) => some (digitsValue 10 digits, rest)
    else splitNumber cs
  match cs with
  | '-' :: rest => (magnitude rest).map fun found => (-(found.1 : Int), found.2)
  | '+' :: rest => (magnitude rest).map fun found => ((found.1 : Int), found.2)
  | _ => (magnitude cs).map fun found => ((found.1 : Int), found.2)

def isWithin64 (n : Int) : Bool := -9223372036854775808 ≤ n && n ≤ 9223372036854775807

def clamped (n : Int) : Int :=
  if n < -9223372036854775808 then -9223372036854775808
  else if 9223372036854775807 < n then 9223372036854775807
  else n

def wholeNumber? (decimal : Bool) (s : String) : Option Int :=
  match splitSigned decimal s.toList with
  | some (n, rest) => if rest.all isWhite && isWithin64 n then some n else none
  | none => if !decimal && s.toList.all isWhite then some 0 else none

def plainNumber? (s : String) : Option Nat :=
  if s.isEmpty then none else s.toList.foldl (fun found c =>
    found.bind fun n => (digitValue? 10 c).map fun d => n * 10 + d) (some 0)

/-! ## Expressions -/

inductive CalculationFault where
  | expecting (what : String)
  | divisionByZero
  | quotientTooLarge
  | notNumber (text : String)
  deriving Repr, DecidableEq

inductive Term where
  | number (n : Int)
  | name (name : String)
  | sign (text : String)
  | alien
  deriving Repr, DecidableEq

def operatorSigns : List String :=
  ["<<=", ">>=", "<<", ">>", "<=", ">=", "==", "!=", "&&", "||", "*=", "/=", "%=", "+=", "-=", "&=",
    "^=", "|=", "<", ">", "=", "!", "&", "|", "^", "~", "?", ":", "(", ")", "*", "/", "%", "+", "-"]

def terms : (steps : Nat) → List Char → List Term
  | 0, _ => []
  | steps + 1, cs =>
    match cs with
    | [] => []
    | c :: rest =>
      if isSpace c then terms steps rest
      else if c.isDigit then
        match splitNumber cs with
        | some (n, rest) => .number (clamped n) :: terms steps rest
        | none => [.alien]
      else if isNameStart c then
        let name := cs.takeWhile isNameChar
        .name (String.ofList name) :: terms steps (cs.drop name.length)
      else
        match operatorSigns.find? fun sign => sign.toList.isPrefixOf cs with
        | some sign => .sign sign :: terms steps (cs.drop sign.length)
        | none => [.alien]

/-- The state of a calculation: what is left to read, and the assignments made, the last first. -/
structure Calculation where
  terms : List Term
  assigned : List (String × Int)

abbrev Calculating := StateT Calculation (Except CalculationFault)

def takeTerm : Calculating (Option Term) := fun c =>
  match c.terms with
  | [] => .ok (none, c)
  | t :: rest => .ok (some t, { c with terms := rest })

def seeTerm : Calculating (Option Term) := fun c => .ok (c.terms.head?, c)

def truth (holds : Bool) : Int := if holds then 1 else 0

/-- The rank of an operator with two sides; those of lower rank bind more closely. -/
def rankOfOperator (sign : String) : Option Nat :=
  if ["*", "/", "%"].contains sign then some 0
  else if ["+", "-"].contains sign then some 1
  else if ["<<", ">>"].contains sign then some 2
  else if ["<", "<=", ">", ">="].contains sign then some 3
  else if ["==", "!="].contains sign then some 4
  else if sign == "&" then some 5
  else if sign == "^" then some 6
  else if sign == "|" then some 7
  else none

def operatorRanks : Nat := 8

def applyOperator (sign : String) (a b : Int) : Except CalculationFault Int :=
  let word (n : Int) : Int64 := Int64.ofInt n
  match sign with
  | "*" => .ok (wrapped (a * b))
  | "/" =>
    if b = 0 then .error .divisionByZero
    else if a = -9223372036854775808 && b = -1 then .error .quotientTooLarge
    else .ok (Int.tdiv a b)
  | "%" =>
    if b = 0 then .error .divisionByZero
    else if a = -9223372036854775808 && b = -1 then .error .quotientTooLarge
    else .ok (Int.tmod a b)
  | "+" => .ok (wrapped (a + b))
  | "-" => .ok (wrapped (a - b))
  | "<<" => .ok (wrapped (a * (Nat.pow 2 (b % 64).toNat : Nat)))
  | ">>" => .ok (a >>> (b % 64).toNat)
  | "<" => .ok (truth (a < b))
  | "<=" => .ok (truth (a ≤ b))
  | ">" => .ok (truth (b < a))
  | ">=" => .ok (truth (b ≤ a))
  | "==" => .ok (truth (a == b))
  | "!=" => .ok (truth (a != b))
  | "&" => .ok (word a &&& word b).toInt
  | "^" => .ok (word a ^^^ word b).toInt
  | _ => .ok (word a ||| word b).toInt

def assigningOperator (sign : String) : Option (Option String) :=
  if sign == "=" then some none
  else if ["*=", "/=", "%=", "+=", "-=", "<<=", ">>=", "&=", "^=", "|="].contains sign then
    some (some (String.ofList sign.toList.dropLast))
  else none

def valueOf (value : String → Except CalculationFault Int) (name : String) : Calculating Int := do
  match (← get).assigned.lookup name with
  | some n => pure n
  | none => (value name : Except CalculationFault Int)

mutual

def assignmentValue (value : String → Except CalculationFault Int) :
    (steps : Nat) → (idle : Bool) → Calculating Int
  | 0, _ => throw (.expecting "primary")
  | steps + 1, idle => do
    match (← get).terms with
    | .name name :: .sign sign :: rest =>
      match assigningOperator sign with
      | some first =>
        modify fun c => { c with terms := rest }
        let right ← assignmentValue value steps idle
        if idle then pure right
        else
          let n ← match first with
            | none => pure right
            | some sign => do
              let left ← valueOf value name
              (applyOperator sign left right : Except CalculationFault Int)
          modify fun c => { c with assigned := (name, n) :: c.assigned }
          pure n
      | none => conditionValue value steps idle
    | _ => conditionValue value steps idle

def conditionValue (value : String → Except CalculationFault Int) :
    (steps : Nat) → (idle : Bool) → Calculating Int
  | 0, _ => throw (.expecting "primary")
  | steps + 1, idle => do
    let a ← orValue value steps idle
    if (← seeTerm) == some (.sign "?") then
      let _ ← takeTerm
      let b ← assignmentValue value steps (idle || a == 0)
      if (← takeTerm) != some (.sign ":") then throw (.expecting "':'")
      let c ← conditionValue value steps (idle || a != 0)
      pure (if a != 0 then b else c)
    else pure a

def orValue (value : String → Except CalculationFault Int) :
    (steps : Nat) → (idle : Bool) → Calculating Int
  | 0, _ => throw (.expecting "primary")
  | steps + 1, idle => do
    let a ← andValue value steps idle
    if (← seeTerm) == some (.sign "||") then
      let _ ← takeTerm
      let b ← orValue value steps (idle || a != 0)
      pure (truth (a != 0 || b != 0))
    else pure a

def andValue (value : String → Except CalculationFault Int) :
    (steps : Nat) → (idle : Bool) → Calculating Int
  | 0, _ => throw (.expecting "primary")
  | steps + 1, idle => do
    let first ← primaryValue value steps idle
    let a ← rankValue value steps idle operatorRanks first
    if (← seeTerm) == some (.sign "&&") then
      let _ ← takeTerm
      let b ← andValue value steps (idle || a == 0)
      pure (truth (a != 0 && b != 0))
    else pure a

def rankValue (value : String → Except CalculationFault Int) :
    (steps : Nat) → (idle : Bool) → (rank : Nat) → Int → Calculating Int
  | 0, _, _, _ => throw (.expecting "primary")
  | steps + 1, idle, rank, a => do
    match ← seeTerm with
    | some (.sign sign) =>
      match rankOfOperator sign with
      | none => pure a
      | some own =>
        if rank ≤ own then pure a
        else
          let _ ← takeTerm
          let first ← primaryValue value steps idle
          let b ← rankValue value steps idle own first
          let n ← (if idle then pure b else applyOperator sign a b : Except CalculationFault Int)
          rankValue value steps idle rank n
    | _ => pure a

/-- A number, a name, something in brackets, or something behind a sign. -/
def primaryValue (value : String → Except CalculationFault Int) :
    (steps : Nat) → (idle : Bool) → Calculating Int
  | 0, _ => throw (.expecting "primary")
  | steps + 1, idle => do
    match ← takeTerm with
    | some (.number n) => pure n
    | some (.name name) => if idle then pure 0 else valueOf value name
    | some (.sign "(") =>
      let n ← assignmentValue value steps idle
      if (← takeTerm) != some (.sign ")") then throw (.expecting "')'")
      pure n
    | some (.sign "+") => primaryValue value steps idle
    | some (.sign "-") => return wrapped (-(← primaryValue value steps idle))
    | some (.sign "!") => return truth ((← primaryValue value steps idle) == 0)
    | some (.sign "~") => return -(← primaryValue value steps idle) - 1
    | _ => throw (.expecting "primary")

end

def calculate (value : String → Except CalculationFault Int) (text : List Char) :
    Except CalculationFault (Int × List (String × Int)) :=
  let steps := 12 * text.length + 20
  match assignmentValue value steps false ⟨terms (text.length + 1) text, []⟩ with
  | .error fault => .error fault
  | .ok (n, c) =>
    if c.terms.isEmpty then .ok (n, c.assigned.reverse) else .error (.expecting "EOF")

end TranscodingEngines.Script
