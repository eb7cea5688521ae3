import TranscodingEngines.Toml.Quoted

/-!
# Writing documents

Texts are written in the plainest form that needs no escapes for quotation marks and backslashes:
between quotation marks, between apostrophes, over several lines between triple quotation marks,
over several lines between triple apostrophes. Only a text that none of these can hold gets escapes
for its quotation marks. Keys are bare when they can be. Arrays of more than one item take a line
for each item.
-/

set_option autoImplicit false

namespace TranscodingEngines.Toml

inductive Form where
  | basic
  | literal
  | basicLines
  | literalLines
  deriving DecidableEq, Repr

def longestRun (mark : Char) : (run : Nat) → List Char → Nat
  | run, [] => run
  | run, c :: rest =>
    if c = mark then longestRun mark (run + 1) rest else max run (longestRun mark 0 rest)

def isControl (c : Char) : Bool := (c < ' ' && c != '\t' && c != '\n') || c == '\x7f'

def formOf (cs : List Char) : Form :=
  let controls := cs.any isControl
  let backslash := cs.contains '\\'
  let breaks := cs.contains '\n'
  let quotes := longestRun '"' 0 cs
  let apostrophes := longestRun '\'' 0 cs
  if !controls && !backslash && quotes = 0 && !breaks then .basic
  else if !controls && apostrophes = 0 && !breaks then .literal
  else if !controls && !backslash && quotes ≤ 2 then .basicLines
  else if !controls && apostrophes ≤ 2 then .literalLines
  else if breaks then .basicLines
  else .basic

/-- The form that a key is written in if it cannot be bare. A key never takes several lines. -/
def keyFormOf (cs : List Char) : Form :=
  let controls := cs.any fun c => isControl c || c == '\n'
  if !controls && !cs.contains '\\' && !cs.contains '"' then .basic
  else if !controls && !cs.contains '\'' then .literal
  else .basic

def hexDigit (n : Nat) : Char := if n < 10 then Char.ofNat (48 + n) else Char.ofNat (55 + n)

def codeEscape (c : Char) : List Char :=
  let n := c.toNat
  ['\\', 'u', hexDigit (n / 4096 % 16), hexDigit (n / 256 % 16), hexDigit (n / 16 % 16),
    hexDigit (n % 16)]

def escaped (lines : Bool) (c : Char) : List Char :=
  if c = '\x08' then ['\\', 'b']
  else if c = '\t' then ['\\', 't']
  else if c = '\n' then (if lines then ['\n'] else ['\\', 'n'])
  else if c = '\x0c' then ['\\', 'f']
  else if c = '\r' then ['\\', 'r']
  else if c = '\\' then ['\\', '\\']
  else if c < ' ' || c = '\x7f' then codeEscape c
  else [c]

/-- Characters between quotation marks. Up to `bound` quotation marks in a row stand for themselves,
counted anew after every escape. `run` counts those just written. -/
def escapeAll (lines : Bool) (bound : Nat) : (run : Nat) → List Char → List Char
  | _, [] => []
  | run, c :: rest =>
    if c = '"' then
      if run < bound then '"' :: escapeAll lines bound (run + 1) rest
      else '\\' :: '"' :: escapeAll lines bound 0 rest
    else escaped lines c ++ escapeAll lines bound 0 rest

/-- The line break after opening marks; only a text of several lines gets one. -/
def opening (cs : List Char) : List Char := if cs.contains '\n' then ['\n'] else []

def quote (form : Form) (cs : List Char) : List Char :=
  match form with
  | .basic => '"' :: escapeAll false 0 0 cs ++ ['"']
  | .literal => '\'' :: cs ++ ['\'']
  | .basicLines => '"' :: '"' :: '"' :: opening cs ++ escapeAll true 2 0 cs ++ ['"', '"', '"']
  | .literalLines => '\'' :: '\'' :: '\'' :: opening cs ++ cs ++ ['\'', '\'', '\'']

def writeString (s : String) : String := String.ofList (quote (formOf s.toList) s.toList)

def isKeyChar (c : Char) : Bool := c.isAlphanum || c == '-' || c == '_'

def writeKey (s : String) : String :=
  let cs := s.toList
  if !cs.isEmpty && cs.all isKeyChar then s else String.ofList (quote (keyFormOf cs) cs)

def writeArray (texts : List String) : String :=
  match texts with
  | [] => "[]"
  | [text] => "[" ++ writeString text ++ "]"
  | texts =>
    "[\n" ++ String.join (texts.map fun text => "    " ++ writeString text ++ ",\n") ++ "]"

def writeAssignment (key value : String) : String := writeKey key ++ " = " ++ value ++ "\n"

def writeHeader (path : List String) : String :=
  "[" ++ ".".intercalate (path.map writeKey) ++ "]\n"

end TranscodingEngines.Toml
