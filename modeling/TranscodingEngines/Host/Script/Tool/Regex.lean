import TranscodingEngines.Host.Script.Calculation
import TranscodingEngines.Host.Script.Pattern

/-!
# Regular expressions

An expression describes the stretches of a text that programs search for. It is written in one of
two styles, which differ in whether the signs with a meaning need a backslash. Of all stretches that
an expression describes, the first one counts, and of those with the same beginning the longest.
-/

set_option autoImplicit false

namespace TranscodingEngines.Script

inductive TextPlace where
  | start
  | finish
  | wordStart
  | wordEnd
  | wordEdge
  | noWordEdge
  | noWordBefore
  | noWordBehind
  deriving DecidableEq, Repr

inductive Regex where
  | nothing
  | char (c : Char)
  | any
  | set (negated : Bool) (items : List SetItem)
  | seq (first second : Regex)
  | either (first second : Regex)
  | times (least : Nat) (most : Option Nat) (part : Regex)
  | group (number : Nat) (part : Regex)
  | again (number : Nat)
  | place (place : TextPlace)

structure Track where
  count : Nat
  before : Option Char
  rest : List Char
  groups : List (Nat × Nat × Nat)

structure Stretch where
  start : Nat
  stop : Nat
  groups : List (Nat × Nat × Nat)

def isWordChar (c : Char) : Bool := c.isAlphanum || c == '_'

namespace Track

def pass (t : Track) (c : Char) (rest : List Char) : Track :=
  { t with count := t.count + 1, before := some c, rest := rest }

def isAt (t : Track) (place : TextPlace) : Bool :=
  let left := t.before.any isWordChar
  let right := t.rest.head?.any isWordChar
  match place with
  | .start => t.count == 0
  | .finish => t.rest.isEmpty
  | .wordStart => !left && right
  | .wordEnd => left && !right
  | .wordEdge => left != right
  | .noWordEdge => left == right
  | .noWordBefore => !left
  | .noWordBehind => !right

def passAll (t : Track) : List Char → Track
  | [] => t
  | c :: more => (t.pass c (t.rest.drop 1)).passAll more

end Track

def sameChar (foldsCase : Bool) (a b : Char) : Bool :=
  if foldsCase then a.toLower == b.toLower else a == b

def repeatEnds (one : Track → List Track) : (steps : Nat) → (least : Nat) → (most : Option Nat) →
    Track → List Track
  | 0, _, _, _ => []
  | steps + 1, least, most, t =>
    let further :=
      if most == some 0 then []
      else (one t).flatMap fun next =>
        if next.count == t.count && least == 0 then []
        else repeatEnds one steps (least - 1) (most.map (· - 1)) next
    if least == 0 then further ++ [t] else further

namespace Regex

def ends (foldsCase : Bool) (text : List Char) : Regex → Track → List Track
  | nothing, t => [t]
  | char c, t =>
    match t.rest with
    | d :: rest => if sameChar foldsCase c d then [t.pass d rest] else []
    | [] => []
  | any, t =>
    match t.rest with
    | d :: rest => [t.pass d rest]
    | [] => []
  | set negated items, t =>
    match t.rest with
    | d :: rest =>
      let holds (c : Char) : Bool := items.any (·.contains c)
      let found := holds d || (foldsCase && (holds d.toLower || holds d.toUpper))
      if found != negated then [t.pass d rest] else []
    | [] => []
  | seq first second, t => (first.ends foldsCase text t).flatMap (second.ends foldsCase text)
  | either first second, t => first.ends foldsCase text t ++ second.ends foldsCase text t
  | times least most part, t =>
    repeatEnds (part.ends foldsCase text) (t.rest.length + least + 2) least most t
  | group number part, t =>
    (part.ends foldsCase text t).map fun next =>
      { next with groups := (number, t.count, next.count) :: next.groups }
  | again number, t =>
    match t.groups.lookup number with
    | none => []
    | some (start, stop) =>
      let wanted := (text.drop start).take (stop - start)
      let found := t.rest.take wanted.length
      if found.length == wanted.length
          && (found.zip wanted).all (fun p => sameChar foldsCase p.1 p.2) then
        [t.passAll found]
      else []
  | place at_, t => if t.isAt at_ then [t] else []

def longest? (r : Regex) (foldsCase : Bool) (text : List Char) (t : Track) : Option Stretch :=
  ((r.ends foldsCase text t).foldl (fun (best : Option Track) next =>
    match best with
    | some other => if other.count < next.count then some next else best
    | none => some next) none).map fun last => ⟨t.count, last.count, last.groups⟩

def searchFrom (r : Regex) (foldsCase : Bool) (text : List Char) : List Char → Track →
    Option Stretch
  | [], t => r.longest? foldsCase text t
  | c :: rest, t =>
    match r.longest? foldsCase text t with
    | some found => some found
    | none => r.searchFrom foldsCase text rest (t.pass c rest)

def find? (r : Regex) (foldsCase : Bool) (text : List Char) (start : Nat) : Option Stretch :=
  let before := if start == 0 then none else text[start - 1]?
  let rest := text.drop start
  r.searchFrom foldsCase text rest ⟨start, before, rest, []⟩

def findAtFront? (r : Regex) (text : List Char) : Option Stretch :=
  r.longest? false text ⟨0, none, text, []⟩

end Regex

def Stretch.part (s : Stretch) (text : List Char) (group : Nat) : Option (List Char) :=
  if group == 0 then some ((text.drop s.start).take (s.stop - s.start))
  else (s.groups.lookup group).map fun g => (text.drop g.1).take (g.2 - g.1)

/-! ## Reading -/

inductive RegexFault where
  | openBracket
  | openGroup
  | openBraces
  | closedGroup
  | badBraces
  | badGroup
  | badClass
  | badRange
  | nothingToRepeat
  | trailingBackslash
  deriving DecidableEq, Repr

def RegexFault.message : RegexFault → String
  | openBracket => "Unmatched [, [^, [:, [., or [="
  | openGroup => "Unmatched ( or \\("
  | openBraces => "Unmatched \\\x7b"
  | closedGroup => "Unmatched ) or \\)"
  | badBraces => "Invalid content of \\\x7b\\\x7d"
  | badGroup => "Invalid back reference"
  | badClass => "Invalid character class name"
  | badRange => "Invalid range end"
  | nothingToRepeat => "Invalid preceding regular expression"
  | trailingBackslash => "Trailing backslash"

inductive RegexSign where
  | part (r : Regex)
  | star
  | plus
  | option
  | braces (least : Nat) (most : Option Nat)
  | opening
  | closing
  | bar
  | caret
  | dollar

def kindSign? (c : Char) : Option Regex :=
  match c with
  | 'w' => some (.set false [.kind isWordChar])
  | 'W' => some (.set true [.kind isWordChar])
  | 's' => some (.set false [.kind isWhite])
  | 'S' => some (.set true [.kind isWhite])
  | 'b' => some (.place .wordEdge)
  | 'B' => some (.place .noWordEdge)
  | '<' => some (.place .wordStart)
  | '>' => some (.place .wordEnd)
  | '\x60' => some (.place .start)
  | '\'' => some (.place .finish)
  | _ => none

/-- The numbers between braces, and what follows; `none` within if they do not make sense. -/
def bracesAt (extended : Bool) (cs : List Char) :
    Option (Option (Nat × Option Nat) × List Char) :=
  let body := cs.takeWhile fun c => c.isDigit || c == ','
  let rest := cs.drop body.length
  let closed := match rest with
    | '\x7d' :: rest => if extended then some rest else none
    | '\\' :: '\x7d' :: rest => if extended then none else some rest
    | _ => none
  closed.map fun rest =>
    let text := String.ofList body
    let counts := match text.splitOn "," with
      | [n] => (plainNumber? n).map fun n => (n, some n)
      | [n, m] =>
        let least := if n.isEmpty then some 0 else plainNumber? n
        let most := if m.isEmpty then some none else (plainNumber? m).map some
        least.bind fun least => most.bind fun most =>
          if most.all (least ≤ ·) then some (least, most) else none
      | _ => none
    (counts, rest)

def regexSign (extended : Bool) (cs : List Char) : Except RegexFault (RegexSign × List Char) :=
  let marked (isMarked : Bool) (c : Char) (rest : List Char) :
      Except RegexFault (RegexSign × List Char) :=
    if isMarked == extended then .ok (.part (.char c), rest)
    else
      match c with
      | '(' => .ok (.opening, rest)
      | ')' => .ok (.closing, rest)
      | '|' => .ok (.bar, rest)
      | '+' => .ok (.plus, rest)
      | '?' => .ok (.option, rest)
      | '\x7b' =>
        match bracesAt extended rest with
        | some (some (least, most), rest) => .ok (.braces least most, rest)
        | some (none, _) => .error .badBraces
        | none => if extended then .ok (.part (.char c), rest) else .error .openBraces
      | c => .ok (.part (.char c), rest)
  match cs with
  | [] => .ok (.part .nothing, [])
  | ['\\'] => .error .trailingBackslash
  | '\\' :: c :: rest =>
    if c.isDigit && c != '0' then .ok (.part (.again (c.toNat - '0'.toNat)), rest)
    else
      match kindSign? c with
      | some r => .ok (.part r, rest)
      | none => if c == 'n' then .ok (.part (.char '\n'), rest) else marked true c rest
  | '[' :: rest =>
    let (negated, inner) := match rest with
      | '^' :: rest => (true, rest)
      | rest => (false, rest)
    match setItems (inner.length + 1) true (inner.map fun c => (c, false)) with
    | some (items, after) => .ok (.part (.set negated items), after.map (·.1))
    | none => .error .openBracket
  | '.' :: rest => .ok (.part .any, rest)
  | '*' :: rest => .ok (.star, rest)
  | '^' :: rest => .ok (.caret, rest)
  | '$' :: rest => .ok (.dollar, rest)
  | c :: rest => marked false c rest

/-- What was read of an expression: its alternatives up to here, the parts of the last one, the last
part first, and how many groups were opened. -/
structure RegexReading where
  regex : Regex
  groups : Nat
  rest : List Char

def seqOf (parts : List Regex) : Regex :=
  parts.foldl (fun later part => match later with
    | .nothing => part
    | later => .seq part later) .nothing

def readRegex (extended : Bool) : (steps : Nat) → (depth groups : Nat) → (done : List Regex) →
    (parts : List Regex) → List Char → Except RegexFault RegexReading
  | 0, _, groups, _, _, cs => .ok ⟨.nothing, groups, cs⟩
  | steps + 1, depth, groups, done, parts, cs => do
    let whole (_ : Unit) : Regex :=
      done.foldl (fun later part => .either part later) (seqOf parts)
    let literal (c : Char) (rest : List Char) : Except RegexFault RegexReading :=
      readRegex extended steps depth groups done (.char c :: parts) rest
    let repeated (least : Nat) (most : Option Nat) (c : Char) (rest : List Char) :
        Except RegexFault RegexReading :=
      match parts with
      | [] =>
        if extended then readRegex extended steps depth groups done parts rest else literal c rest
      | .place .start :: _ =>
        if extended then readRegex extended steps depth groups done parts rest else literal c rest
      | part :: before =>
        readRegex extended steps depth groups done (.times least most part :: before) rest
    if cs.isEmpty then
      if depth == 0 then pure ⟨whole (), groups, []⟩ else throw .openGroup
    else
      let (sign, rest) ← regexSign extended cs
      match sign with
      | .part (.again n) =>
        if n ≤ groups then readRegex extended steps depth groups done (.again n :: parts) rest
        else throw .badGroup
      | .part r => readRegex extended steps depth groups done (r :: parts) rest
      | .star => repeated 0 none '*' rest
      | .plus => repeated 1 none '+' rest
      | .option => repeated 0 (some 1) '?' rest
      | .braces least most =>
        if parts.isEmpty then throw .nothingToRepeat else repeated least most '\x7b' rest
      | .opening =>
        let inner ← readRegex extended steps (depth + 1) (groups + 1) [] [] rest
        readRegex extended steps depth inner.groups done
          (.group (groups + 1) inner.regex :: parts) inner.rest
      | .closing =>
        if depth == 0 then throw .closedGroup else pure ⟨whole (), groups, rest⟩
      | .bar => readRegex extended steps depth groups (seqOf parts :: done) [] rest
      | .caret =>
        if extended || parts.isEmpty then
          readRegex extended steps depth groups done (.place .start :: parts) rest
        else literal '^' rest
      | .dollar =>
        let isLast := extended || rest.isEmpty || "\\)".toList.isPrefixOf rest
          || "\\|".toList.isPrefixOf rest
        if isLast then
          readRegex extended steps depth groups done (.place .finish :: parts) rest
        else literal '$' rest

def Regex.read (extended : Bool) (text : List Char) : Except RegexFault Regex :=
  (readRegex extended (text.length + 2) 0 0 [] [] text).map (·.regex)

def Regex.literal (text : List Char) : Regex := seqOf (text.reverse.map .char)

end TranscodingEngines.Script
