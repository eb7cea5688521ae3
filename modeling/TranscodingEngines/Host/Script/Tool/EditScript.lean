import TranscodingEngines.Host.Script.Tool.Basic
import TranscodingEngines.Host.Script.Tool.Regex

/-!
# Scripts of the line editor

A script is a list of instructions. Each has an action and may say which lines it is for. Groups of
instructions stand between braces, and labels name places to go on at.
-/

set_option autoImplicit false

namespace TranscodingEngines.Script

/-- An expression in a script; an empty one is the last that was used. -/
structure EditRegex where
  regex : Option Regex
  foldsCase : Bool

inductive Address where
  | line (number : Nat)
  | last
  | found (regex : EditRegex)
  | every (first step : Nat)
  | further (count : Nat)
  | multiple (count : Nat)

structure Reach where
  first : Option Address
  last : Option Address
  negated : Bool

inductive CaseChange where
  | upper
  | lower
  | nextUpper
  | nextLower
  | asIs
  deriving DecidableEq, Repr

inductive Substitute where
  | char (c : Char)
  | group (number : Nat)
  | change (change : CaseChange)

structure Replacement where
  regex : EditRegex
  parts : List Substitute
  isGlobal : Bool
  number : Nat
  prints : Bool
  file : Option String

inductive EditAction where
  /-- Goes on behind the closing brace unless the line is reached. -/
  | opening
  | closing
  | delete
  | deleteFirst
  | print
  | printFirst
  | next
  | nextToo
  | quit (status : Nat) (prints : Bool)
  | hold
  | holdToo
  | fetch
  | fetchToo
  | exchange
  | number
  | name
  | list
  | append (text : List Char)
  | insert (text : List Char)
  | change (text : List Char)
  | translate (table : List (Char × Char))
  | replace (replacement : Replacement)
  | branch (label : String)
  | branchIf (wasReplaced : Bool) (label : String)
  | label (name : String)
  | readFile (name : String)
  | writeFile (name : String)
  | zap
  | nothing

structure Instruction where
  reach : Reach
  action : EditAction

/-! ## Reading -/

structure EditFault where
  text : String
  /-- What was left to read; nothing if the complaint is about the whole script. -/
  rest : Option (List Char)

def editFault {α : Type} (text : String) (rest : List Char) : Except EditFault α :=
  .error ⟨text, some rest⟩

def ofCommand (name : String) : String := "\x60" ++ name ++ "'"

def skipBlanks (cs : List Char) : List Char := cs.dropWhile fun c => c == ' ' || c == '\t'

/-- How long a set is that starts here, behind its opening bracket; nothing if it has no end. -/
def setLength? (cs : List Char) : Option Nat :=
  let front := match cs with
    | '^' :: ']' :: _ => 2
    | '^' :: _ => 1
    | ']' :: _ => 1
    | _ => 0
  let body := (cs.drop front).takeWhile (· != ']')
  let length := front + body.length + 1
  if length ≤ cs.length then some length else none

/-- Reads up to a sign. A backslash keeps the sign from counting, and goes if it stands before the
sign; in an expression, a sign within a set does not count either. -/
def untilSign (sign : Char) (isRegex : Bool) : (steps : Nat) → List Char →
    Option (List Char × List Char)
  | 0, _ => none
  | steps + 1, cs =>
    match cs with
    | [] => none
    | '\\' :: c :: rest =>
      let kept := if c == sign then [c] else ['\\', c]
      (untilSign sign isRegex steps rest).map fun found => (kept ++ found.1, found.2)
    | c :: rest =>
      if c == sign then some ([], rest)
      else if c == '\n' && isRegex then none
      else
        let inside := if isRegex && c == '[' then (setLength? rest).getD 0 else 0
        (untilSign sign isRegex steps (rest.drop inside)).map fun found =>
          (c :: rest.take inside ++ found.1, found.2)

def readCount (cs : List Char) : Option (Nat × List Char) :=
  match splitDigits 10 cs with
  | ([], _) => none
  | (digits, rest) => some (digitsValue 10 digits, rest)

def editRegex (extended foldsCase : Bool) (text rest : List Char) : Except EditFault EditRegex :=
  if text.isEmpty then .ok ⟨none, foldsCase⟩
  else
    match Regex.read extended text with
    | .ok regex => .ok ⟨some regex, foldsCase⟩
    | .error fault => editFault fault.message rest

def readAddress (extended : Bool) (cs : List Char) :
    Except EditFault (Option Address × List Char) :=
  let regexUpTo (sign : Char) (rest : List Char) :
      Except EditFault (Option Address × List Char) :=
    match untilSign sign true (rest.length + 1) rest with
    | none => editFault "unterminated address regex" []
    | some (text, rest) => do
      let flags := rest.takeWhile fun c => c == 'I' || c == 'M'
      let rest := rest.drop flags.length
      let regex ← editRegex extended (flags.contains 'I') text rest
      pure (some (.found regex), rest)
  match cs with
  | '$' :: rest => .ok (some .last, rest)
  | '/' :: rest => regexUpTo '/' rest
  | '\\' :: sign :: rest => regexUpTo sign rest
  | cs =>
    match readCount cs with
    | none => .ok (none, cs)
    | some (n, rest) =>
      match rest with
      | '~' :: more =>
        match readCount more with
        | some (step, rest) => .ok (some (.every n step), rest)
        | none => .ok (some (.every n 0), more)
      | rest => .ok (some (.line n), rest)

def readSecond (extended : Bool) (cs : List Char) : Except EditFault (Address × List Char) :=
  match cs with
  | '+' :: rest =>
    match readCount rest with
    | some (n, rest) => .ok (.further n, rest)
    | none => editFault "expected number" rest
  | '~' :: rest =>
    match readCount rest with
    | some (n, rest) => .ok (.multiple n, rest)
    | none => .ok (.multiple 0, rest)
  | cs => do
    match ← readAddress extended cs with
    | (some address, rest) => pure (address, rest)
    | (none, rest) => editFault ("unexpected " ++ ofCommand ",") rest

def readReach (extended : Bool) (cs : List Char) : Except EditFault (Reach × List Char) := do
  let (first, rest) ← readAddress extended cs
  let behind := skipBlanks rest
  let (last, rest) ← (match first, behind with
    | some _, ',' :: more => do
      let (second, rest) ← readSecond extended (skipBlanks more)
      pure (some second, skipBlanks rest)
    | _, _ => pure (none, behind))
  let marks := rest.takeWhile fun c => c == '!' || c == ' ' || c == '\t'
  let reach : Reach := ⟨first, last, marks.contains '!'⟩
  match first, last with
  | some (.line 0), some (.found _) => pure (reach, rest.drop marks.length)
  | some (.line 0), _ => editFault "invalid usage of line address 0" (rest.drop 1)
  | _, _ => pure (reach, rest.drop marks.length)

def substitutes : List Char → List Substitute
  | [] => []
  | '\\' :: c :: rest =>
    let part : Substitute :=
      if c.isDigit then .group (c.toNat - '0'.toNat)
      else
        match c with
        | 'n' => .char '\n'
        | 't' => .char '\t'
        | 'U' => .change .upper
        | 'L' => .change .lower
        | 'u' => .change .nextUpper
        | 'l' => .change .nextLower
        | 'E' => .change .asIs
        | c => .char c
    part :: substitutes rest
  | '&' :: rest => .group 0 :: substitutes rest
  | c :: rest => .char c :: substitutes rest

def Regex.groupCount : Regex → Nat
  | .seq a b => max a.groupCount b.groupCount
  | .either a b => max a.groupCount b.groupCount
  | .times _ _ part => part.groupCount
  | .group number part => max number part.groupCount
  | _ => 0

def replacementFlags : (steps : Nat) → List Char → Replacement × Bool →
    Except EditFault ((Replacement × Bool) × List Char)
  | 0, cs, found => .ok (found, cs)
  | steps + 1, cs, (r, counted) =>
    let name := ofCommand "s"
    match cs with
    | 'g' :: rest =>
      if r.isGlobal then
        editFault ("multiple " ++ ofCommand "g" ++ " options to " ++ name ++ " command") rest
      else replacementFlags steps rest ({ r with isGlobal := true }, counted)
    | 'p' :: rest =>
      if r.prints then
        editFault ("multiple " ++ ofCommand "p" ++ " options to " ++ name ++ " command") rest
      else replacementFlags steps rest ({ r with prints := true }, counted)
    | 'i' :: rest | 'I' :: rest =>
      replacementFlags steps rest ({ r with regex := { r.regex with foldsCase := true } }, counted)
    | 'm' :: rest | 'M' :: rest => replacementFlags steps rest (r, counted)
    | 'w' :: rest =>
      let file := (skipBlanks rest).takeWhile (· != '\n')
      .ok (({ r with file := some (String.ofList file) }, counted),
        (skipBlanks rest).drop file.length)
    | cs =>
      match readCount cs with
      | some (n, rest) =>
        if n == 0 then editFault ("number option to " ++ name ++ " command may not be zero") rest
        else if counted then
          editFault ("multiple number options to " ++ name ++ " command") rest
        else replacementFlags steps rest ({ r with number := n }, true)
      | none => .ok ((r, counted), cs)

def readEnd (cs : List Char) : Except EditFault (List Char) :=
  match skipBlanks cs with
  | [] => .ok []
  | '\n' :: rest => .ok rest
  | ';' :: rest => .ok rest
  | '\x7d' :: rest => .ok ('\x7d' :: rest)
  | '#' :: rest => .ok ('#' :: rest)
  | '\r' :: rest => .ok rest
  | _ :: rest => editFault "extra characters after command" rest

def readReplacement (extended : Bool) (cs : List Char) :
    Except EditFault (EditAction × List Char) := do
  let unfinished := "unterminated " ++ ofCommand "s" ++ " command"
  match cs with
  | [] => editFault unfinished []
  | sign :: rest =>
    match untilSign sign true (rest.length + 1) rest with
    | none => editFault unfinished []
    | some (pattern, rest) =>
      match untilSign sign false (rest.length + 1) rest with
      | none => editFault unfinished []
      | some (text, rest) =>
        let parts := substitutes text
        let plain : Replacement := ⟨⟨none, false⟩, parts, false, 1, false, none⟩
        let ((replacement, _), rest) ← replacementFlags (rest.length + 1) rest (plain, false)
        let rest ← (match skipBlanks rest with
          | [] => pure []
          | c :: more =>
            if "\n;#\x7d\r".toList.contains c then pure (c :: more)
            else editFault ("unknown option to " ++ ofCommand "s") more)
        let regex ← editRegex extended replacement.regex.foldsCase pattern rest
        let most := parts.foldl (fun n part => match part with
          | .group number => max n number
          | _ => n) 0
        if regex.regex.any fun r => r.groupCount < most then
          editFault ("invalid reference \\" ++ toString most ++ " on " ++ ofCommand "s"
            ++ " command's RHS") rest
        else
          let rest ← readEnd rest
          pure (.replace { replacement with regex := regex }, rest)

def tableChars : List Char → List Char
  | '\\' :: 'n' :: rest => '\n' :: tableChars rest
  | '\\' :: c :: rest => c :: tableChars rest
  | c :: rest => c :: tableChars rest
  | [] => []

def readTable (cs : List Char) : Except EditFault (EditAction × List Char) := do
  let unfinished := "unterminated " ++ ofCommand "y" ++ " command"
  match cs with
  | [] => editFault unfinished []
  | sign :: rest =>
    match untilSign sign false (rest.length + 1) rest with
    | none => editFault unfinished []
    | some (source, rest) =>
      match untilSign sign false (rest.length + 1) rest with
      | none => editFault unfinished []
      | some (target, rest) =>
        let source := tableChars source
        let target := tableChars target
        if source.length != target.length then
          editFault ("strings for " ++ ofCommand "y" ++ " command are different lengths") rest
        else pure (.translate (source.zip target), ← readEnd rest)

def textLines : List Char → List Char × List Char
  | [] => ([], [])
  | '\\' :: c :: rest =>
    let (text, after) := textLines rest
    (c :: text, after)
  | '\n' :: rest => ([], rest)
  | c :: rest =>
    let (text, after) := textLines rest
    (c :: text, after)

def readText (make : List Char → EditAction) (cs : List Char) :
    Except EditFault (EditAction × List Char) := do
  let cs := skipBlanks cs
  let (text, rest) ← (match cs with
    | [] =>
      editFault ("expected \\ after " ++ ofCommand "a" ++ ", " ++ ofCommand "c" ++ " or "
        ++ ofCommand "i") []
    | '\\' :: rest =>
      match skipBlanks rest with
      | '\n' :: rest => pure (textLines rest)
      | [] => pure ([], [])
      | _ => pure (textLines rest)
    | cs => pure (textLines cs))
  pure (make (if text.isEmpty && cs.length ≤ 1 then [] else ended text), rest)

def readName (make : String → EditAction) (stops : List Char) (cs : List Char) :
    Except EditFault (EditAction × List Char) :=
  let cs := skipBlanks cs
  let name := cs.takeWhile fun c => !stops.contains c
  .ok (make (String.ofList (Text.dropTrailing (· == ' ') name)), match cs.drop name.length with
    | '\x7d' :: rest => '\x7d' :: rest
    | rest => rest.drop 1)

def readAction (extended : Bool) (hasAddress : Bool) (cs : List Char) :
    Except EditFault (EditAction × List Char) := do
  let plain (action : EditAction) (rest : List Char) :
      Except EditFault (EditAction × List Char) := do
    pure (action, ← readEnd rest)
  let quitting (prints : Bool) (rest : List Char) : Except EditFault (EditAction × List Char) :=
    match readCount (skipBlanks rest) with
    | some (n, rest) => plain (.quit n prints) rest
    | none => plain (.quit 0 prints) rest
  match cs with
  | [] => editFault "missing command" []
  | c :: rest =>
    match c with
    | '\x7b' => pure (.opening, rest)
    | '\x7d' => plain .closing rest
    | 'd' => plain .delete rest
    | 'D' => plain .deleteFirst rest
    | 'p' => plain .print rest
    | 'P' => plain .printFirst rest
    | 'n' => plain .next rest
    | 'N' => plain .nextToo rest
    | 'q' => quitting true rest
    | 'Q' => quitting false rest
    | 'h' => plain .hold rest
    | 'H' => plain .holdToo rest
    | 'g' => plain .fetch rest
    | 'G' => plain .fetchToo rest
    | 'x' => plain .exchange rest
    | '=' => plain .number rest
    | 'F' => plain .name rest
    | 'l' => plain .list rest
    | 'z' => plain .zap rest
    | 'v' => plain .nothing rest
    | 'a' => readText .append rest
    | 'i' => readText .insert rest
    | 'c' => readText .change rest
    | 's' => readReplacement extended rest
    | 'y' => readTable rest
    | 'b' => readName .branch ['\n', ';', '\x7d'] rest
    | 't' => readName (.branchIf true) ['\n', ';', '\x7d'] rest
    | 'T' => readName (.branchIf false) ['\n', ';', '\x7d'] rest
    | 'r' => readName .readFile ['\n'] rest
    | 'w' => readName .writeFile ['\n'] rest
    | ':' =>
      if hasAddress then editFault ": doesn't want any addresses" rest
      else readName .label ['\n', ';'] rest
    | '#' =>
      if hasAddress then editFault "comments don't accept any addresses" rest
      else pure (.nothing, (rest.dropWhile (· != '\n')).drop 1)
    | c => editFault ("unknown command: " ++ ofCommand (String.singleton c)) rest

def readInstructions (extended : Bool) : (steps : Nat) → (open_ : Nat) → List Instruction →
    List Char → Except EditFault (List Instruction)
  | 0, _, found, _ => .ok found.reverse
  | steps + 1, open_, found, cs => do
    match cs.dropWhile fun c => isSpace c || c == ';' with
    | [] =>
      if open_ == 0 then pure found.reverse
      else .error ⟨"unmatched " ++ ofCommand "\x7b", none⟩
    | cs =>
      let (reach, rest) ← readReach extended cs
      let (action, rest) ← readAction extended reach.first.isSome rest
      let instruction : Instruction := ⟨reach, action⟩
      match action with
      | .opening => readInstructions extended steps (open_ + 1) (instruction :: found) rest
      | .closing =>
        if open_ == 0 then
          editFault ("unexpected " ++ ofCommand "\x7d") rest
        else readInstructions extended steps (open_ - 1) (instruction :: found) rest
      | .nothing => readInstructions extended steps open_ found rest
      | _ => readInstructions extended steps open_ (instruction :: found) rest

def readEditScript (extended : Bool) (cs : List Char) : Except EditFault (List Instruction) :=
  readInstructions extended (cs.length + 1) 0 [] cs

end TranscodingEngines.Script
