import TranscodingEngines.Host.Script.Octets
import TranscodingEngines.Host.Task

/-!
# The parts of a script

A script is a list of commands for the shell. A word of a command is made of pieces: text, the value
of a parameter, the output of a command, or the result of a calculation, each quoted or not. Lines
are counted from one and kept where a complaint may have to name them.
-/

set_option autoImplicit false

namespace TranscodingEngines.Script

inductive Standby where
  | use
  | assign
  | complain
  | replace
  deriving Repr, DecidableEq

inductive Cut where
  | shortestFront
  | longestFront
  | shortestBack
  | longestBack
  deriving Repr, DecidableEq

mutual

inductive Piece where
  | text (chars : List Char) (quoted : Bool)
  | parameter (name : String) (quoted : Bool)
  | length (name : String) (quoted : Bool)
  | standby (name : String) (kind : Standby) (emptyToo : Bool) (word : List Piece) (quoted : Bool)
  | trimmed (name : String) (cut : Cut) (pattern : List Piece) (quoted : Bool)
  | unknown
  | output (body : Command) (quoted : Bool)
  | calculation (expression : List Piece) (quoted : Bool)

inductive Redirection where
  | file (stream : Nat) (opening : Opening) (name : List Piece)
  | copy (stream : Nat) (target : List Piece)
  | document (stream number : Nat)

inductive Command where
  | nothing
  | simple (line : Nat) (assignments words : List (List Piece)) (redirections : List Redirection)
  | pipeline (stages : List Command)
  | negation (command : Command)
  | both (first second : Command)
  | either (first second : Command)
  | sequence (first second : Command)
  | background (line : Nat) (command : Command) (redirections : List Redirection)
  | loop (untilTrue : Bool) (condition body : Command)
  | branch (condition yes no : Command)
  | each (line : Nat) (name : String) (items : List (List Piece)) (body : Command)
  | choice (line : Nat) (subject : List Piece) (cases : List (List (List Piece) × Command))
  | subshell (line : Nat) (body : Command) (redirections : List Redirection)
  | redirected (line : Nat) (body : Command) (redirections : List Redirection)
  | definition (line : Nat) (name : String) (body : Command)

end

abbrev Word := List Piece

instance : Inhabited Command := ⟨.nothing⟩

def plainChars : Word → Option (List Char)
  | [] => some []
  | .text chars false :: rest => (plainChars rest).map (chars ++ ·)
  | _ :: _ => none

def assignment? : Word → Option (String × Word)
  | .text chars false :: rest =>
    let name := chars.takeWhile isNameChar
    match chars.drop name.length with
    | '=' :: value =>
      if isName name then
        some (String.ofList name, if value.isEmpty then rest else .text value false :: rest)
      else none
    | _ => none
  | _ => none

inductive Fault where
  | unexpected (found : String) (expected : Option String)
  | openQuote
  | openBackquote
  | openBrace
  | openCalculation
  | badLoopName
  | badFunctionName
  | badStream
  deriving Repr, DecidableEq

def Fault.message : Fault → String
  | unexpected found none => found ++ " unexpected"
  | unexpected found (some expected) => found ++ " unexpected (expecting " ++ expected ++ ")"
  | openQuote => "Unterminated quoted string"
  | openBackquote => "EOF in backquote substitution"
  | openBrace => "Missing '\x7d'"
  | openCalculation => "Missing '))'"
  | badLoopName => "Bad for loop variable"
  | badFunctionName => "Bad function name"
  | badStream => "Bad fd number"

end TranscodingEngines.Script
