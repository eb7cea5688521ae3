import TranscodingEngines.Toml.Value

/-!
# Scalars

Numbers, truth values and moments are words made of letters, digits and a few signs. A word is
classified as a whole. Integers have at most 64 bits with sign; a float may not be so large that it
would round to positive infinity.
-/

set_option autoImplicit false

namespace TranscodingEngines.Toml

def digitValue (base : Nat) (c : Char) : Option Nat :=
  let value :=
    if '0' ≤ c ∧ c ≤ '9' then c.toNat - '0'.toNat
    else if 'a' ≤ c ∧ c ≤ 'f' then c.toNat - 'a'.toNat + 10
    else if 'A' ≤ c ∧ c ≤ 'F' then c.toNat - 'A'.toNat + 10
    else base
  if value < base then some value else none

/-- The digits of a word in which single underscores may stand between digits. `wanted` says that
the next character has to be a digit. -/
def digits (base : Nat) : (wanted : Bool) → List Char → Option (List Nat)
  | wanted, [] => if wanted then none else some []
  | wanted, '_' :: rest => if wanted then none else digits base true rest
  | _, c :: rest => do
    let value ← digitValue base c
    let values ← digits base false rest
    pure (value :: values)

def ofDigits (base : Nat) (values : List Nat) : Nat :=
  values.foldl (fun n d => n * base + d) 0

/-- The digits of a decimal number without a sign and without idle zeros at the front. -/
def decimalDigits (word : List Char) : Option (List Nat) := do
  let values ← digits 10 true word
  match values with
  | 0 :: _ :: _ => none
  | values => pure values

def splitSign : List Char → Bool × List Char
  | '-' :: rest => (true, rest)
  | '+' :: rest => (false, rest)
  | word => (false, word)

def fitting (n : Int) : Option Int :=
  if -9223372036854775808 ≤ n ∧ n ≤ 9223372036854775807 then some n else none

def integer? (word : List Char) : Option Int :=
  match word with
  | '0' :: 'x' :: rest => (digits 16 true rest).bind fun ds => fitting (ofDigits 16 ds)
  | '0' :: 'o' :: rest => (digits 8 true rest).bind fun ds => fitting (ofDigits 8 ds)
  | '0' :: 'b' :: rest => (digits 2 true rest).bind fun ds => fitting (ofDigits 2 ds)
  | word =>
    let (negative, rest) := splitSign word
    (decimalDigits rest).bind fun ds =>
      let n : Int := ofDigits 10 ds
      fitting (if negative then -n else n)

/-- A number of the shape `digits * 10 ^ exponent`. -/
structure Scientific where
  digits : List Nat
  exponent : Int

/-- The number rounds to infinity as a float of 64 bits. -/
def Scientific.isHuge (s : Scientific) : Bool :=
  let significant := s.digits.dropWhile (· == 0)
  let size := (significant.length : Int) + s.exponent
  if significant.isEmpty || size < 300 then false
  else if size > 320 then true
  else
    let n := ofDigits 10 significant
    let limit := Nat.pow 2 1024 - Nat.pow 2 970
    if 0 ≤ s.exponent then limit ≤ n * Nat.pow 10 s.exponent.toNat
    else limit * Nat.pow 10 (-s.exponent).toNat ≤ n

def exponent? (word : List Char) : Option Int :=
  let (negative, rest) := splitSign word
  (digits 10 true rest).map fun ds =>
    let n : Int := ofDigits 10 ds
    if negative then -n else n

def isExponentMark (c : Char) : Bool := c == 'e' || c == 'E'

/-- Reads a float without its sign: whole digits, then a fraction or an exponent or both. -/
def magnitude? (word : List Char) : Option Scientific := do
  let number := word.takeWhile (!isExponentMark ·)
  let rest := word.drop number.length
  let whole := number.takeWhile (· != '.')
  let fraction := number.drop whole.length
  let wholeDigits ← decimalDigits whole
  let fractionDigits ←
    match fraction with
    | [] => if rest.isEmpty then none else some []
    | _ :: fraction => digits 10 true fraction
  let exponent ←
    match rest with
    | [] => some 0
    | _ :: rest => exponent? rest
  pure ⟨wholeDigits ++ fractionDigits, exponent - fractionDigits.length⟩

def isFloat (word : List Char) : Bool :=
  let (negative, rest) := splitSign word
  if rest == ['i', 'n', 'f'] || rest == ['n', 'a', 'n'] then true
  else
    match magnitude? rest with
    | some s => negative || !s.isHuge
    | none => false

def twoDigits (limit : Nat) (a b : Char) : Option Nat := do
  let high ← digitValue 10 a
  let low ← digitValue 10 b
  if high * 10 + low < limit then pure (high * 10 + low) else none

def daysInMonth (year month : Nat) : Nat :=
  if month = 2 then
    if year % 4 = 0 ∧ (year % 100 ≠ 0 ∨ year % 400 = 0) then 29 else 28
  else if month = 4 ∨ month = 6 ∨ month = 9 ∨ month = 11 then 30
  else 31

def isDate : List Char → Bool
  | [y₁, y₂, y₃, y₄, '-', m₁, m₂, '-', d₁, d₂] =>
    match twoDigits 100 y₁ y₂, twoDigits 100 y₃ y₄, twoDigits 13 m₁ m₂, twoDigits 32 d₁ d₂ with
    | some century, some year, some month, some day =>
      1 ≤ month && 1 ≤ day && day ≤ daysInMonth (century * 100 + year) month
    | _, _, _, _ => false
  | _ => false

def isHourMinute (h₁ h₂ m₁ m₂ : Char) : Bool :=
  (twoDigits 24 h₁ h₂).isSome && (twoDigits 60 m₁ m₂).isSome

/-- The characters say how far local time is from universal time. -/
def isOffset : List Char → Bool
  | ['Z'] => true
  | ['z'] => true
  | [sign, h₁, h₂, ':', m₁, m₂] => (sign == '+' || sign == '-') && isHourMinute h₁ h₂ m₁ m₂
  | _ => false

/-- What may follow the seconds of a time: a fraction, and an offset if one is allowed. -/
def isTimeRest (offset : Bool) (word : List Char) : Bool :=
  let (wellFormed, rest) :=
    match word with
    | '.' :: tail => (tail.head?.any Char.isDigit, tail.dropWhile Char.isDigit)
    | tail => (true, tail)
  wellFormed && (rest.isEmpty || (offset && isOffset rest))

def isTime (offset : Bool) : List Char → Bool
  | h₁ :: h₂ :: ':' :: m₁ :: m₂ :: ':' :: s₁ :: s₂ :: rest =>
    isHourMinute h₁ h₂ m₁ m₂ && (twoDigits 61 s₁ s₂).isSome && isTimeRest offset rest
  | _ => false

def isMoment (word : List Char) : Bool :=
  isDate word || isTime false word
    || match word.drop 10 with
      | 'T' :: rest => isDate (word.take 10) && isTime true rest
      | 't' :: rest => isDate (word.take 10) && isTime true rest
      | _ => false

def scalar? (word : List Char) : Option Value :=
  if word == ['t', 'r', 'u', 'e'] then some (.boolean true)
  else if word == ['f', 'a', 'l', 's', 'e'] then some (.boolean false)
  else if isMoment word then some (.moment (String.ofList word))
  else if isFloat word then some (.float (String.ofList word))
  else (integer? word).map .integer

end TranscodingEngines.Toml
