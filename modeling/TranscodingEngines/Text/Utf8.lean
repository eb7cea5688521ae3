/-!
# Reading bytes as text

UTF-8 in both directions. `scan` takes one step at the front of a byte string: it yields either a
scalar value or the longest start of one that went wrong, with the number of bytes used up.
Lossy reading puts U+FFFD for every ill-formed piece; strict reading refuses the whole string.
-/

set_option autoImplicit false

namespace TranscodingEngines.Text

def encode (cs : List Char) : List UInt8 := cs.flatMap String.utf8EncodeChar

def bytes (s : String) : List UInt8 := encode s.toList

/-- A step of reading: the character found, or none for an ill-formed piece, and how many bytes
beyond the first it takes. -/
structure Scanned where
  char : Option Char
  extra : Nat
  deriving DecidableEq, Repr

def isTail (b : UInt8) : Bool := 0x80 ≤ b && b ≤ 0xbf

def tailBits (b : UInt8) : Nat := b.toNat % 64

/-- The bytes that may come second after a given first byte of a longer character. -/
def secondRange (b : UInt8) : UInt8 × UInt8 :=
  if b = 0xe0 then (0xa0, 0xbf)
  else if b = 0xed then (0x80, 0x9f)
  else if b = 0xf0 then (0x90, 0xbf)
  else if b = 0xf4 then (0x80, 0x8f)
  else (0x80, 0xbf)

/-- How many bytes follow a first byte, none if no character starts with it. -/
def tailCount (b : UInt8) : Option Nat :=
  if b < 0x80 then some 0
  else if 0xc2 ≤ b && b ≤ 0xdf then some 1
  else if 0xe0 ≤ b && b ≤ 0xef then some 2
  else if 0xf0 ≤ b && b ≤ 0xf4 then some 3
  else none

/-- Reads the further bytes of a character whose value so far is `value`; `used` counts those
taken. -/
def scanTails : (left : Nat) → (used value : Nat) → List UInt8 → Scanned
  | 0, used, value, _ => ⟨some (Char.ofNat value), used⟩
  | _ + 1, used, _, [] => ⟨none, used⟩
  | left + 1, used, value, b :: rest =>
    if isTail b then scanTails left (used + 1) (value * 64 + tailBits b) rest
    else ⟨none, used⟩

/-- Reads the character that starts with `b`. -/
def scan (b : UInt8) (rest : List UInt8) : Scanned :=
  match tailCount b with
  | none => ⟨none, 0⟩
  | some 0 => ⟨some (Char.ofNat b.toNat), 0⟩
  | some (left + 1) =>
    match rest with
    | [] => ⟨none, 0⟩
    | c :: tail =>
      let range := secondRange b
      if range.1 ≤ c && c ≤ range.2 then
        scanTails left 1 (b.toNat % Nat.pow 2 (5 - left) * 64 + tailBits c) tail
      else ⟨none, 0⟩

/-- Reads bytes as characters, with U+FFFD for every ill-formed piece. -/
def decodeLossy : List UInt8 → List Char
  | [] => []
  | b :: rest =>
    let step := scan b rest
    step.char.getD '\ufffd' :: decodeLossy (rest.drop step.extra)
termination_by bs => bs.length
decreasing_by simp only [List.length_drop, List.length_cons]; omega

/-- Reads bytes as characters; none if some piece is ill-formed. -/
def decode? : List UInt8 → Option (List Char)
  | [] => some []
  | b :: rest =>
    let step := scan b rest
    step.char.bind fun c => (decode? (rest.drop step.extra)).map (c :: ·)
termination_by bs => bs.length
decreasing_by simp only [List.length_drop, List.length_cons]; omega

end TranscodingEngines.Text
