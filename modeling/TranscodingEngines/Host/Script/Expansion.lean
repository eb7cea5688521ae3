import TranscodingEngines.Host.Script.Shell
import TranscodingEngines.Host.Script.Pattern
import TranscodingEngines.Host.Script.Calculation

/-!
# Expansion of words

Every piece of a word is replaced by characters, each marked as quoted or not, in spans of which
some may be cut into fields. A word that vanishes gives no field unless something in it was quoted.
A field with characters that stand for others is replaced by the names of the files it describes.
-/

set_option autoImplicit false

namespace TranscodingEngines.Script

inductive Mark where
  | char (c : Char) (quoted : Bool)
  | quotes
  | gap
  deriving DecidableEq, Repr

inductive Zone where
  | uncut
  | atSeparators
  | atGaps
  deriving DecidableEq, Repr

structure Span where
  zone : Zone
  marks : List Mark
  deriving DecidableEq, Repr

structure Purpose where
  fields : Bool
  /-- The word stands for the value of a parameter, so that its text is cut as well. -/
  standsIn : Bool
  tilde : Bool
  assigned : Bool
  deriving DecidableEq, Repr

namespace Purpose

def forFields : Purpose := ⟨true, false, true, false⟩

def forText : Purpose := ⟨false, false, true, false⟩

def forValue : Purpose := ⟨false, false, true, true⟩

def forPlainText : Purpose := ⟨false, false, false, false⟩

end Purpose

/-! ## Fields -/

def marksOf (quoted : Bool) (chars : List Char) : List Mark := chars.map (.char · quoted)

/-- Fields on the way: those that are done and the one that is begun, both in reverse. -/
structure Cutting where
  done : List (List Mark)
  begun : List Mark
  /-- A blank separator was the last; blanks and one other separator behind it belong to it. -/
  skips : Bool
  left : Option Nat
  lastLength : Option Nat

namespace Cutting

def start (limit : Option Nat) : Cutting := ⟨[], [], false, limit, none⟩

def endField (c : Cutting) : Cutting := { c with done := c.begun :: c.done, begun := [] }

def add (c : Cutting) (mark : Mark) : Cutting := { c with begun := mark :: c.begun, skips := false }

/-- Takes a mark of a span that is cut at separators. Without `mergesBlanks` every separator counts
on its own. -/
def takeCut (separators : List Char) (mergesBlanks : Bool) (c : Cutting) (mark : Mark) : Cutting :=
  let (separates, isBlank) := match mark with
    | .char x _ => (separators.contains x, isSpace x && mergesBlanks)
    | .gap => (true, mergesBlanks)
    | .quotes => (false, false)
  if c.left == some 0 then
    if separates && isBlank then
      { c with begun := mark :: c.begun, lastLength := c.lastLength.or (some c.begun.length) }
    else
      { c.add mark with lastLength := if separates && c.skips then c.lastLength else none }
  else if !separates then c.add mark
  else if c.skips then if isBlank then c else { c with skips := false }
  else if c.begun.isEmpty && isBlank then c
  else
    match c.left with
    | some 1 =>
      { c with left := some 0, lastLength := some c.begun.length, begun := mark :: c.begun,
               skips := isBlank }
    | left => { c.endField with left := left.map (· - 1), skips := isBlank }

def takeGapped (c : Cutting) (mark : Mark) : Cutting :=
  match mark with
  | .gap => c.endField
  | mark => c.add mark

def takeSpan (separators : List Char) (mergesBlanks : Bool) (c : Cutting) (span : Span) : Cutting :=
  let c := { c with skips := false }
  match span.zone with
  | .uncut => span.marks.foldl add c
  | .atSeparators => span.marks.foldl (takeCut separators mergesBlanks) c
  | .atGaps => span.marks.foldl takeGapped c

/-- The fields in the end. Behind a span that is cut at gaps stands a field, if only an empty one. -/
def fields (c : Cutting) (endsAtGap : Bool) : List (List Mark) :=
  let last := match c.lastLength with
    | some length => c.begun.drop (c.begun.length - length)
    | none => c.begun
  let all := if last.isEmpty && !endsAtGap then c.done else last :: c.done
  (all.map List.reverse).reverse

end Cutting

/-- Cuts spans into fields, perhaps no more than so many, of which the last takes what is left. A
span that is cut at separators right after one that is cut at gaps does not merge blanks. -/
def cutFields (separators : List Char) (limit : Option Nat) (spans : List Span) :
    List (List Mark) :=
  let (c, zone) := spans.foldl (fun found span =>
    let zone := if span.zone == .uncut then found.2 else span.zone
    (found.1.takeSpan separators (found.2 != .atGaps) span, zone)) (Cutting.start limit, .uncut)
  c.fields (zone == .atGaps)

def charsOf (marks : List Mark) : List Char :=
  marks.filterMap fun mark => match mark with
    | .char c _ => some c
    | _ => none

def patternOf (marks : List Mark) : List PatternChar :=
  marks.filterMap fun mark => match mark with
    | .char c quoted => some (c, quoted)
    | _ => none

def textOf (marks : List Mark) : String := String.ofList (charsOf marks)

def spansMarks (spans : List Span) : List Mark := spans.flatMap (·.marks)

/-! ## Names of files -/

/-- The names in a directory that a pattern describes, sorted. Names that start with a dot count
only if the pattern starts with one. -/
def namesMatching (h : Host) (directory : String) (pattern : List PatternChar) : List String :=
  let place := if directory.isEmpty then "." else ofRaw directory
  let showsHidden := pattern.head?.any (·.1 == '.')
  let names := match h.list ⟨place⟩ with
    | .ok names => if showsHidden then "." :: ".." :: names else names
    | .error _ => []
  let raw := names.map toRaw
  (raw.filter fun name =>
    (showsHidden || name.toList.head? != some '.') && patternMatches pattern name.toList).mergeSort
      fun a b => a ≤ b

def pathsMatching (h : Host) : (known : String) → List (List PatternChar) → List String
  | _, [] => []
  | known, [step] =>
    if isWild step then (namesMatching h known step).map (known ++ ·)
    else
      let path := known ++ String.ofList (step.map (·.1))
      let isThere := match h.followName ⟨ofRaw path⟩ with
        | .ok (.entry _ _) => !path.endsWith "/" || h.isDirectory ⟨ofRaw path⟩
        | _ => false
      if isThere then [path] else []
  | known, step :: rest =>
    if isWild step then
      (namesMatching h known step).flatMap fun name =>
        if h.isDirectory ⟨ofRaw (known ++ name)⟩ then pathsMatching h (known ++ name ++ "/") rest
        else []
    else pathsMatching h (known ++ String.ofList (step.map (·.1)) ++ "/") rest

def filesOf (h : Host) (field : List Mark) : List String :=
  let pattern := patternOf field
  match pathsMatching h "" (splitWhere (·.1 == '/') pattern) with
  | [] => [textOf field]
  | paths => paths

/-! ## Home directories -/

def homeOf (s : Shell) (user : String) : Option String :=
  if user.isEmpty then s.valueNamed? "HOME" else if user == "root" then some "/root" else none

def homeAtFront (s : Shell) (assigned isLast : Bool) (chars : List Char) :
    Option (List Char × List Char) :=
  match chars with
  | '~' :: rest =>
    let user := rest.takeWhile fun c => c != '/' && !(assigned && c == ':')
    let after := rest.drop user.length
    if after.isEmpty && !isLast then none
    else (homeOf s (String.ofList user)).map fun home => (home.toList, after)
  | _ => none

/-- The marks of an unquoted text, in which tildes may stand for home directories: at its front if it
is the first of a word, and behind colons if it is assigned. -/
def textMarks (s : Shell) (assigned isFirst isLast : Bool) (chars : List Char) : List Mark :=
  let marks (isLast : Bool) (part : List Char) : List Mark :=
    match homeAtFront s assigned isLast part with
    | some (home, after) => marksOf true home ++ marksOf false after
    | none => marksOf false part
  let parts := if assigned then splitWhere (· == ':') chars else [chars]
  let found := parts.mapIdx fun i part =>
    if isFirst || i != 0 then marks (isLast || i + 1 != parts.length) part else marksOf false part
  (found.intersperse [.char ':' false]).flatten

/-! ## Parameters -/

def joinMarks (between : List Mark) (parts : List (List Mark)) : List Mark :=
  (parts.intersperse between).flatten

def allArguments (s : Shell) (name : String) (fields quoted : Bool) : Span :=
  let args := s.args.map fun arg => marksOf quoted arg.toList
  let first := match s.valueNamed? "IFS" with
    | some text => marksOf quoted (text.toList.take 1)
    | none => [.char ' ' quoted]
  if quoted then
    if fields && name == "@" then
      ⟨if s.args.isEmpty then .uncut else .atGaps, joinMarks [.gap] args⟩
    else ⟨.uncut, joinMarks first args⟩
  else if fields then
    ⟨.atSeparators, joinMarks (if (s.binding? "IFS").isSome then [.gap] else [.char ' ' false]) args⟩
  else ⟨.atSeparators, joinMarks first args⟩

def valueSpan? (s : Shell) (name : String) (fields quoted : Bool) : Option Span :=
  if name == "@" || name == "*" then some (allArguments s name fields quoted)
  else
    (s.parameter? name).map fun value =>
      ⟨if quoted then .uncut else .atSeparators, marksOf quoted value.toList⟩

def CalculationFault.text (fault : CalculationFault) (expression : List Char) : String :=
  let shown (what : String) : String :=
    "arithmetic expression: " ++ what ++ ": \"" ++ String.ofList expression ++ "\""
  match fault with
  | expecting what => shown ("expecting " ++ what)
  | divisionByZero => shown "division by zero"
  | quotientTooLarge => ""
  | notNumber text => "Illegal number: " ++ text

def numberIn (s : Shell) (name : String) : Except CalculationFault Int :=
  match s.valueNamed? name with
  | none => .ok 0
  | some text =>
    match wholeNumber? false text with
    | some n => .ok n
    | none => .error (.notNumber text)

def calculation (expression : List Char) : Code (List Char) := do
  match calculate (numberIn (← get)) expression with
  | .error .quotientTooLarge => Task.die 8
  | .error fault =>
    giveUp (fault.text expression)
    pure []
  | .ok (n, assigned) =>
    for entry in assigned do
      if ← isRunning then assignOrLeave entry.1 (toString entry.2)
    pure (toString n).toList

/-! ## Words -/

abbrev Capture := Command → Code (List Char)

def Piece.isInsideQuotes : Piece → Bool
  | .text chars quoted => quoted && !chars.isEmpty
  | .parameter _ quoted => quoted
  | .length _ quoted => quoted
  | .standby _ _ _ _ quoted => quoted
  | .trimmed _ _ _ quoted => quoted
  | .unknown => false
  | .output _ quoted => quoted
  | .calculation _ quoted => quoted

mutual

/-- Replaces the pieces of a word. A pair of quotation marks with nothing but all arguments between
them vanishes if there are none. -/
def expandPieces (capture : Capture) : (depth : Nat) → Purpose → (isFirst : Bool) → Word →
    List Span → Code (List Span)
  | 0, _, _, _, found => pure found.reverse
  | depth + 1, purpose, isFirst, word, found => do
    if !(← isRunning) then return found.reverse
    match word with
    | [] => pure found.reverse
    | .text [] true :: .parameter "@" true :: rest =>
      let span := allArguments (← get) "@" purpose.fields true
      let marked := rest.head?.any Piece.isInsideQuotes || !purpose.fields
      let found := if marked then ⟨.uncut, [.quotes]⟩ :: found else found
      expandPieces capture depth purpose false rest (span :: found)
    | piece :: rest =>
      let spans ← expandPiece capture depth purpose isFirst rest.isEmpty piece
      expandPieces capture depth purpose false rest (spans.reverse ++ found)

def expandPiece (capture : Capture) : (depth : Nat) → Purpose → (isFirst isLast : Bool) → Piece →
    Code (List Span)
  | 0, _, _, _, _ => pure []
  | depth + 1, purpose, isFirst, isLast, piece => do
    let s ← get
    let zoneOf (quoted : Bool) : Zone := if quoted then .uncut else .atSeparators
    let single (quoted : Bool) (chars : List Char) : List Span :=
      [⟨zoneOf quoted, marksOf quoted chars⟩]
    let missing (name : String) : Code (List Span) := do
      giveUp (name ++ ": parameter not set")
      pure []
    match piece with
    | .text chars true => pure [⟨.uncut, .quotes :: marksOf true chars⟩]
    | .text chars false =>
      let marks :=
        if purpose.tilde then textMarks s purpose.assigned isFirst isLast chars
        else marksOf false chars
      pure [⟨if purpose.standsIn then .atSeparators else .uncut, marks⟩]
    | .parameter name quoted =>
      match valueSpan? s name purpose.fields quoted with
      | some span => pure [span]
      | none => if s.hasOption 'u' then missing name else pure (single quoted [])
    | .length name quoted =>
      match valueSpan? s name false true with
      | some span => pure (single quoted (toString (charsOf span.marks).length).toList)
      | none => if s.hasOption 'u' then missing name else pure (single quoted ['0'])
    | .standby name kind emptyToo word quoted =>
      let value := valueSpan? s name purpose.fields quoted
      let isThere := match value with
        | none => false
        | some span => !(emptyToo && span.marks.isEmpty)
      let inner : Purpose := ⟨purpose.fields, !quoted, true, false⟩
      match kind, isThere with
      | .use, true => pure value.toList
      | .use, false => expandPieces capture depth inner true word []
      | .replace, true => expandPieces capture depth inner true word []
      | .replace, false => pure (single quoted [])
      | _, true => pure value.toList
      | .assign, false =>
        if !isName name.toList then
          giveUp (name ++ ": bad variable name")
          pure []
        else
          let text ← expandToText capture depth .forText word
          if ← isRunning then assignOrLeave name text
          pure ((valueSpan? (← get) name purpose.fields quoted).toList)
      | .complain, false =>
        let text ← expandToText capture depth .forText word
        if ← isRunning then
          if word.isEmpty then
            giveUp (name ++ ": parameter not set" ++ (if emptyToo then " or null" else ""))
          else giveUp (name ++ ": " ++ text)
        pure []
    | .trimmed name cut pattern quoted =>
      match valueSpan? s name false quoted with
      | none => if s.hasOption 'u' then missing name else pure (single quoted [])
      | some span =>
        let spans ← expandPieces capture depth ⟨false, false, true, false⟩ true pattern []
        pure (single quoted (cutOff cut (patternOf (spansMarks spans)) (charsOf span.marks)))
    | .unknown =>
      giveUp "Bad substitution"
      pure []
    | .output body quoted =>
      let chars ← capture body
      pure (single quoted chars)
    | .calculation expression quoted =>
      let text ← expandToText capture depth .forPlainText expression
      if ← isRunning then
        let chars ← calculation text.toList
        pure (single quoted chars)
      else pure []

def expandToText (capture : Capture) : (depth : Nat) → Purpose → Word → Code String
  | 0, _, _ => pure ""
  | depth + 1, purpose, word => do
    let spans ← expandPieces capture depth purpose true word []
    pure (textOf (spansMarks spans))

end

def expandValue (capture : Capture) (depth : Nat) (word : Word) : Code String :=
  expandToText capture depth .forValue word

def expandText (capture : Capture) (depth : Nat) (word : Word) : Code String :=
  expandToText capture depth .forText word

def expandPattern (capture : Capture) (depth : Nat) (word : Word) : Code (List PatternChar) := do
  let spans ← expandPieces capture depth .forText true word []
  pure (patternOf (spansMarks spans))

def expandFields (capture : Capture) (depth : Nat) (word : Word) : Code (List String) := do
  let spans ← expandPieces capture depth .forFields true word []
  let s ← get
  let fields := cutFields s.separators none spans
  if s.hasOption 'f' || !(fields.any fun field => isWild (patternOf field)) then
    pure (fields.map textOf)
  else
    let h ← lookAround
    pure (fields.flatMap fun field =>
      if isWild (patternOf field) then filesOf h field else [textOf field])

def expandAll (capture : Capture) (depth : Nat) : List Word → Code (List String)
  | [] => pure []
  | word :: rest => do
    let fields ← expandFields capture depth word
    if ← isRunning then return fields ++ (← expandAll capture depth rest) else pure fields

end TranscodingEngines.Script
