import TranscodingEngines.Host.Script.Calculation

/-!
# Fractions in decimal

Texts are read as exact fractions, and fractions are written with a number of decimal places, in
powers of ten, or in the shorter of the two. A half goes to the even neighbour. What programs keep
as binary numbers of 53 digits is the fraction that such a number stands for.
-/

set_option autoImplicit false

namespace TranscodingEngines.Script

structure Fraction where
  negative : Bool
  numerator : Nat
  denominator : Nat
  deriving DecidableEq, Repr

/-- A quotient rounded to the nearest number, a half to the even neighbour. -/
def roundedQuotient (n d : Nat) : Nat :=
  let q := n / d
  let r := 2 * (n % d)
  if r < d then q else if d < r then q + 1 else if q % 2 = 0 then q else q + 1

inductive Quantity where
  | fraction (f : Fraction)
  | infinite (negative : Bool)
  | notNumber (negative : Bool)
  deriving DecidableEq, Repr

def splitPlaces (base : Nat) (cs : List Char) : List Nat × List Nat × List Char :=
  let (whole, rest) := splitDigits base cs
  match rest with
  | '.' :: more =>
    let (places, after) := splitDigits base more
    if whole.isEmpty && places.isEmpty then ([], [], rest) else (whole, places, after)
  | rest => (whole, [], rest)

/-- The largest size of an exponent; more makes no difference to what is printed. -/
def largestExponent : Nat := 6000

/-- The exponent behind a letter, and what follows it; zero if there is none. -/
def splitExponent (letter : Char) (cs : List Char) : Int × List Char :=
  match cs with
  | c :: rest =>
    if c.toLower == letter then
      let (negative, digits) := match rest with
        | '-' :: rest => (true, rest)
        | '+' :: rest => (false, rest)
        | rest => (false, rest)
      match splitDigits 10 digits with
      | ([], _) => (0, cs)
      | (found, after) =>
        let size : Int := min (digitsValue 10 found) largestExponent
        (if negative then -size else size, after)
    else (0, cs)
  | [] => (0, [])

def powerOf (base : Nat) (exponent : Int) : Nat × Nat :=
  if 0 ≤ exponent then (Nat.pow base exponent.toNat, 1) else (1, Nat.pow base (-exponent).toNat)

/-- The number at the front of a text, behind blanks, and what follows it; nothing if there is
none. -/
def splitQuantity (cs : List Char) : Option (Quantity × List Char) :=
  let cs := cs.dropWhile isWhite
  let (negative, cs) := match cs with
    | '-' :: rest => (true, rest)
    | '+' :: rest => (false, rest)
    | cs => (false, cs)
  let lower := cs.map Char.toLower
  let decimal : Option (Quantity × List Char) :=
    match splitPlaces 10 cs with
    | ([], [], _) => none
    | (whole, places, rest) =>
      let (exponent, rest) := splitExponent 'e' rest
      let (up, down) := powerOf 10 (exponent - places.length)
      some (.fraction ⟨negative, digitsValue 10 (whole ++ places) * up, down⟩, rest)
  if "infinity".toList.isPrefixOf lower then some (.infinite negative, cs.drop 8)
  else if "inf".toList.isPrefixOf lower then some (.infinite negative, cs.drop 3)
  else if "nan".toList.isPrefixOf lower then some (.notNumber negative, cs.drop 3)
  else
    match cs with
    | '0' :: x :: rest =>
      if x == 'x' || x == 'X' then
        match splitPlaces 16 rest with
        | ([], [], _) => decimal
        | (whole, places, rest) =>
          let (exponent, rest) := splitExponent 'p' rest
          let (up, down) := powerOf 2 (exponent - 4 * places.length)
          some (.fraction ⟨negative, digitsValue 16 (whole ++ places) * up, down⟩, rest)
      else decimal
    | _ => decimal

def binaryExponent (f : Fraction) : Int :=
  let size := (Nat.log2 f.numerator : Int) - Nat.log2 f.denominator
  let exponent := size - 53
  let (up, down) := powerOf 2 (-exponent)
  let digits := f.numerator * up / (f.denominator * down)
  let exponent := if digits < 9007199254740992 then exponent else exponent + 1
  if exponent < -1074 then -1074 else exponent

def toBinary (f : Fraction) : Quantity :=
  if f.numerator = 0 then .fraction f
  else
    let exponent := binaryExponent f
    let (up, down) := powerOf 2 (-exponent)
    let digits := roundedQuotient (f.numerator * up) (f.denominator * down)
    let (up, down) := powerOf 2 exponent
    if 1023 < exponent + Nat.log2 digits then .infinite f.negative
    else .fraction ⟨f.negative, digits * up, down⟩

def withPoint (places : Nat) (hash : Bool) (n : Nat) : String :=
  let digits := (toString n).toList
  let digits := List.replicate (places + 1 - digits.length) '0' ++ digits
  let whole := digits.take (digits.length - places)
  let rest := digits.drop (digits.length - places)
  String.ofList (if rest.isEmpty && !hash then whole else whole ++ '.' :: rest)

def inPlaces (places : Nat) (hash : Bool) (f : Fraction) : String :=
  withPoint places hash (roundedQuotient (f.numerator * Nat.pow 10 places) f.denominator)

def decimalExponent (f : Fraction) : Int :=
  if f.numerator = 0 then 0
  else
    let guess : Int := (toString f.numerator).length - ((toString f.denominator).length : Int)
    let (up, down) := powerOf 10 guess
    if f.numerator * down < f.denominator * up then guess - 1 else guess

def powerDigits (places : Nat) (f : Fraction) : Nat × Int :=
  let exponent := decimalExponent f
  let (up, down) := powerOf 10 ((places : Int) - exponent)
  let digits := roundedQuotient (f.numerator * up) (f.denominator * down)
  if digits = Nat.pow 10 (places + 1) then (digits / 10, exponent + 1) else (digits, exponent)

def exponentText (exponent : Int) : String :=
  let digits := toString exponent.natAbs
  "e" ++ (if exponent < 0 then "-" else "+") ++ (if digits.length < 2 then "0" else "") ++ digits

def inPowers (places : Nat) (hash : Bool) (f : Fraction) : String :=
  let (digits, exponent) := powerDigits places f
  withPoint places hash digits ++ exponentText exponent

def withoutZeros (s : String) : String :=
  if s.toList.contains '.' then
    let rest := s.toList.reverse.dropWhile (· == '0')
    String.ofList (match rest with
      | '.' :: rest => rest.reverse
      | rest => rest.reverse)
  else s

def inShort (significant : Nat) (hash : Bool) (f : Fraction) : String :=
  let significant := max significant 1
  let (digits, exponent) := powerDigits (significant - 1) f
  if -4 ≤ exponent && exponent < significant then
    let text := inPlaces ((significant : Int) - 1 - exponent).toNat hash f
    if hash then text else withoutZeros text
  else
    let text := withPoint (significant - 1) hash digits
    (if hash then text else withoutZeros text) ++ exponentText exponent

end TranscodingEngines.Script
