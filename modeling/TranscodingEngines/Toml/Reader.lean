import TranscodingEngines.Toml.Insertion
import TranscodingEngines.Toml.Scalar
import TranscodingEngines.Toml.Quoted

/-!
# Reading documents

A document is a sequence of lines, each of which is empty, a header, or an assignment, with a
comment at its end or none. Values may run over several lines inside brackets or inside triple
quotes. Arrays and tables in line are nested less than eighty deep, and a dotted key has fewer than
eighty parts.
-/

set_option autoImplicit false

namespace TranscodingEngines.Toml

/-- The bound on nesting and on the parts of a dotted key. -/
def nestingLimit : Nat := 80

abbrev Found (α : Type) := Option (α × List Char)

def skipSpace (cs : List Char) : List Char := cs.dropWhile isSpace

def skipComment : List Char → List Char
  | '#' :: rest => rest.dropWhile isPlain
  | cs => cs

def skipToBreak (cs : List Char) : List Char := skipComment (skipSpace cs)

def lineEnd (cs : List Char) : Option (List Char) :=
  match skipToBreak cs with
  | [] => some []
  | '\n' :: rest => some rest
  | '\r' :: '\n' :: rest => some rest
  | _ => none

/-- The characters after blanks, comments and line breaks. Each round ends one line. -/
def skipLines : Nat → List Char → List Char
  | 0, cs => skipToBreak cs
  | rounds + 1, cs =>
    match skipToBreak cs with
    | '\n' :: rest => skipLines rounds rest
    | '\r' :: '\n' :: rest => skipLines rounds rest
    | rest => rest

def skipGap (cs : List Char) : List Char := skipLines cs.length cs

def isBareChar (c : Char) : Bool := c.isAlphanum || c == '-' || c == '_'

def keyPart (cs : List Char) : Found String :=
  match quotedLine cs with
  | some (name, rest) => some (String.ofList name, rest)
  | none =>
    match cs.takeWhile isBareChar with
    | [] => none
    | name => some (String.ofList name, cs.dropWhile isBareChar)

/-- Reads the parts of a key, with dots between them. There are at most as many parts as `rounds`.
-/
def keyParts : (rounds : Nat) → List Char → Found (List String)
  | 0, _ => none
  | rounds + 1, cs =>
    match keyPart (skipSpace cs) with
    | none => none
    | some (part, rest) =>
      match skipSpace rest with
      | '.' :: more => (keyParts rounds more).map fun found => (part :: found.1, found.2)
      | rest => some ([part], rest)

def key (cs : List Char) : Found (List String) := keyParts (nestingLimit - 1) cs

def isWordChar (c : Char) : Bool :=
  c.isAlphanum || c == '_' || c == '+' || c == '-' || c == '.' || c == ':'

def timeAfterBlank : List Char → Option (List Char)
  | ' ' :: c :: rest => if c.isDigit then some ((c :: rest).takeWhile isWordChar) else none
  | _ => none

/-- Reads a scalar. A date may have its time behind a blank. -/
def scalar (cs : List Char) : Found Value :=
  let word := cs.takeWhile isWordChar
  let rest := cs.dropWhile isWordChar
  match (if isDate word then timeAfterBlank rest else none) with
  | some time =>
    if isTime true time then
      some (.moment (String.ofList (word ++ ' ' :: time)), rest.drop (time.length + 1))
    else none
  | none => (scalar? word).map fun value => (value, rest)

def after (mark : Char) : List Char → Option (List Char)
  | c :: rest => if c = mark then some rest else none
  | [] => none

mutual

/-- Reads a value that may be nested `depth` deep. The first number bounds the steps. -/
def value : (steps depth : Nat) → List Char → Found Value
  | 0, _, _ => none
  | steps + 1, depth, cs =>
    match cs with
    | '"' :: _ => (quoted cs).map fun found => (.string (String.ofList found.1), found.2)
    | '\'' :: _ => (quoted cs).map fun found => (.string (String.ofList found.1), found.2)
    | '[' :: rest =>
      match depth with
      | 0 => none
      | depth + 1 =>
        (items steps depth (skipGap rest)).map fun found => (.array found.1, found.2)
    | '\x7b' :: rest =>
      match depth with
      | 0 => none
      | depth + 1 =>
        match skipSpace rest with
        | '\x7d' :: rest => some (.inlineTable [], rest)
        | rest =>
          (pairs steps depth rest).bind fun found =>
            (inlineTable? found.1).map fun table => (table, found.2)
    | _ => scalar cs

def items : (steps depth : Nat) → List Char → Found (List Value)
  | 0, _, _ => none
  | steps + 1, depth, cs =>
    match cs with
    | ']' :: rest => some ([], rest)
    | _ =>
      (value steps depth cs).bind fun item =>
        match skipGap item.2 with
        | ',' :: rest =>
          (items steps depth (skipGap rest)).map fun found => (item.1 :: found.1, found.2)
        | ']' :: rest => some ([item.1], rest)
        | _ => none

/-- Reads the assignments of a table in line up to its closing brace. -/
def pairs : (steps depth : Nat) → List Char → Found (List (List String × Value))
  | 0, _, _ => none
  | steps + 1, depth, cs =>
    (key cs).bind fun path =>
      (after '=' path.2).bind fun rest =>
        (value steps depth (skipSpace rest)).bind fun found =>
          match skipSpace found.2 with
          | ',' :: rest =>
            (pairs steps depth rest).map fun more => ((path.1, found.1) :: more.1, more.2)
          | '\x7d' :: rest => some ([(path.1, found.1)], rest)
          | _ => none

end

inductive Statement where
  | blank
  | header (path : List String)
  | elementHeader (path : List String)
  | assignment (path : List String) (value : Value)

def Draft.add (d : Draft) : Statement → Option Draft
  | .blank => some d
  | .header path => d.header path
  | .elementHeader path => d.elementHeader path
  | .assignment path value => d.assignment path value

def statement (cs : List Char) : Option (Statement × List Char) :=
  match skipSpace cs with
  | [] => some (.blank, [])
  | '#' :: rest => some (.blank, '#' :: rest)
  | '\n' :: rest => some (.blank, '\n' :: rest)
  | '\r' :: rest => some (.blank, '\r' :: rest)
  | '[' :: '[' :: rest => do
    let (path, rest) ← key rest
    let rest ← after ']' rest
    let rest ← after ']' rest
    pure (.elementHeader path, rest)
  | '[' :: rest => do
    let (path, rest) ← key rest
    let rest ← after ']' rest
    pure (.header path, rest)
  | rest => do
    let (path, rest) ← key rest
    let rest ← after '=' rest
    let rest := skipSpace rest
    let (found, rest) ← value (2 * rest.length + 2) (nestingLimit - 1) rest
    pure (.assignment path found, rest)

/-- A document that cannot be read, with the number of the line that is at fault. -/
structure ReadError where
  line : Nat
  deriving DecidableEq, Repr

def ReadError.message (e : ReadError) : String := "TOML parse error at line " ++ toString e.line

/-- The number of line breaks in the first of two texts but not in the second, its end. -/
def linesBetween (whole rest : List Char) : Nat := whole.count '\n' - rest.count '\n'

def readLines : (rounds line : Nat) → Draft → List Char → Except ReadError Draft
  | 0, line, _, _ => .error ⟨line⟩
  | _ + 1, _, d, [] => .ok d
  | rounds + 1, line, d, cs =>
    match statement cs with
    | none => .error ⟨line⟩
    | some (said, rest) =>
      match lineEnd rest, d.add said with
      | some rest, some d => readLines rounds (line + linesBetween cs rest) d rest
      | _, _ => .error ⟨line⟩

def skipMark : List Char → List Char
  | '\ufeff' :: rest => rest
  | cs => cs

def read (text : String) : Except ReadError Entries :=
  let cs := skipMark text.toList
  (readLines (cs.length + 1) 1 .empty cs).map (·.entries)

end TranscodingEngines.Toml
