import TranscodingEngines.Host.Script.Syntax

/-!
# Patterns

A pattern describes texts: an asterisk stands for any characters, a question mark for one, and
brackets for one out of a set. A character of a pattern may be quoted, and then stands for itself. A
bracket that is never closed stands for itself as well.
-/

set_option autoImplicit false

namespace TranscodingEngines.Script

abbrev PatternChar := Char × Bool

inductive SetItem where
  | range (first last : Char)
  | kind (holds : Char → Bool)

inductive Glob where
  | char (c : Char)
  | anything
  | one
  | set (negated : Bool) (items : List SetItem)

def SetItem.contains (item : SetItem) (c : Char) : Bool :=
  match item with
  | range first last => first ≤ c && c ≤ last
  | kind holds => holds c

def isPunctuation (c : Char) : Bool := '!' ≤ c && c ≤ '~' && !c.isAlphanum

def namedKind? (name : String) : Option (Char → Bool) :=
  match name with
  | "alnum" => some Char.isAlphanum
  | "alpha" => some Char.isAlpha
  | "blank" => some fun c => c == ' ' || c == '\t'
  | "cntrl" => some fun c => c.toNat < 32 || c.toNat == 127
  | "digit" => some Char.isDigit
  | "graph" => some fun c => '!' ≤ c && c ≤ '~'
  | "lower" => some Char.isLower
  | "print" => some fun c => ' ' ≤ c && c ≤ '~'
  | "punct" => some isPunctuation
  | "space" => some isWhite
  | "upper" => some Char.isUpper
  | "xdigit" => some fun c => (digitOf16 c)
  | _ => none
where
  digitOf16 (c : Char) : Bool :=
    c.isDigit || ('a' ≤ c && c ≤ 'f') || ('A' ≤ c && c ≤ 'F')

/-- The named kind behind an opening bracket and a colon, and what follows it. -/
def kindAt (cs : List PatternChar) : Option ((Char → Bool) × List PatternChar) :=
  match cs with
  | (':', false) :: rest =>
    let name := rest.takeWhile fun p => p.1.isAlpha
    match rest.drop name.length with
    | (':', _) :: (']', _) :: rest =>
      (namedKind? (String.ofList (name.map (·.1)))).map fun holds => (holds, rest)
    | _ => none
  | _ => none

/-- Reads a set up to its closing bracket, which does not count at the very start; nothing if it is
never closed. -/
def setItems : (steps : Nat) → (atStart : Bool) → List PatternChar →
    Option (List SetItem × List PatternChar)
  | 0, _, _ => none
  | steps + 1, atStart, cs =>
    match cs with
    | [] => none
    | (c, quoted) :: rest =>
      if c == ']' && !quoted && !atStart then some ([], rest)
      else
        match if c == '[' && !quoted then kindAt rest else none with
        | some (holds, rest) =>
          (setItems steps false rest).map fun found => (.kind holds :: found.1, found.2)
        | none =>
          match rest with
          | ('-', false) :: (last, q) :: after =>
            if last == ']' && !q then
              (setItems steps false rest).map fun found => (.range c c :: found.1, found.2)
            else (setItems steps false after).map fun found => (.range c last :: found.1, found.2)
          | rest => (setItems steps false rest).map fun found => (.range c c :: found.1, found.2)

def globs : (steps : Nat) → List PatternChar → List Glob
  | 0, _ => []
  | steps + 1, cs =>
    match cs with
    | [] => []
    | ('*', false) :: rest => .anything :: globs steps rest
    | ('?', false) :: rest => .one :: globs steps rest
    | ('[', false) :: rest =>
      let (negated, inner) := match rest with
        | ('!', false) :: rest => (true, rest)
        | ('^', false) :: rest => (true, rest)
        | rest => (false, rest)
      match setItems (inner.length + 1) true inner with
      | some (items, after) => .set negated items :: globs steps after
      | none => .char '[' :: globs steps rest
    | (c, _) :: rest => .char c :: globs steps rest

def endsOf {α : Type} : List α → List (List α)
  | [] => [[]]
  | a :: rest => (a :: rest) :: endsOf rest

def globsMatch : List Glob → List Char → Bool
  | [], cs => cs.isEmpty
  | .anything :: parts, cs => (endsOf cs).any (globsMatch parts)
  | .one :: parts, cs =>
    match cs with
    | [] => false
    | _ :: rest => globsMatch parts rest
  | .char c :: parts, cs =>
    match cs with
    | [] => false
    | d :: rest => c == d && globsMatch parts rest
  | .set negated items :: parts, cs =>
    match cs with
    | [] => false
    | c :: rest => (items.any (·.contains c)) != negated && globsMatch parts rest

def patternMatches (pattern : List PatternChar) (cs : List Char) : Bool :=
  globsMatch (globs (pattern.length + 1) pattern) cs

def isWild (pattern : List PatternChar) : Bool :=
  pattern.any fun p => !p.2 && (p.1 == '*' || p.1 == '?' || p.1 == '[')

def cutOff (cut : Cut) (pattern : List PatternChar) (cs : List Char) : List Char :=
  let parts := globs (pattern.length + 1) pattern
  let lengths := List.range (cs.length + 1)
  let front (n : Nat) : Bool := globsMatch parts (cs.take n)
  let back (n : Nat) : Bool := globsMatch parts (cs.drop n)
  match cut with
  | .shortestFront => cs.drop ((lengths.find? front).getD 0)
  | .longestFront => cs.drop ((lengths.reverse.find? front).getD 0)
  | .shortestBack => cs.take ((lengths.reverse.find? back).getD cs.length)
  | .longestBack => cs.take ((lengths.find? back).getD cs.length)

end TranscodingEngines.Script
