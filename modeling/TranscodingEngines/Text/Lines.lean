import TranscodingEngines.Text.Utf8
import TranscodingEngines.Text.Blank

/-!
# Lines

Two readings of lines are in use. `streamLines` reads what a program wrote: pieces end at line
feeds, each piece is decoded by itself, and all line feeds and carriage returns at its end are
dropped. `readLines` takes the same pieces from a stream one read after the other. `lines` cuts a
text for printing: a line ends at a line feed, one carriage return before it belongs to the ending,
and no line follows the last line feed.
-/

set_option autoImplicit false

namespace TranscodingEngines.Text

/-- Cuts a list after every occurrence of `mark`, which stays at the end of its piece. -/
def cutAfter {α : Type} [BEq α] (mark : α) (as : List α) : List (List α) :=
  as.foldr (fun a pieces =>
    if a == mark then [a] :: pieces
    else
      match pieces with
      | [] => [[a]]
      | piece :: pieces => (a :: piece) :: pieces) []

def isLineEnd (c : Char) : Bool := c == '\r' || c == '\n'

def streamLine (piece : List UInt8) : String :=
  String.ofList (dropTrailing isLineEnd (decodeLossy piece))

def streamLines (stream : List UInt8) : List String :=
  (cutAfter 0x0a stream).map streamLine

/-- What one read takes from a stream: everything up to the first line feed, which it takes too, or
up to the end. -/
def taken (stream : List UInt8) : List UInt8 :=
  stream.takeWhile (· != 0x0a) ++ (stream.dropWhile (· != 0x0a)).take 1

def untaken (stream : List UInt8) : List UInt8 := (stream.dropWhile (· != 0x0a)).drop 1

theorem taken_untaken (stream : List UInt8) : taken stream ++ untaken stream = stream := by
  rw [taken, untaken, List.append_assoc, List.take_append_drop, List.takeWhile_append_dropWhile]

/-- Reads until a read takes nothing, and makes a line of every read. -/
def readLines (stream : List UInt8) : List String :=
  if (taken stream).isEmpty then [] else streamLine (taken stream) :: readLines (untaken stream)
termination_by stream.length
decreasing_by
  rename_i hTaken
  have hLength := congrArg List.length (taken_untaken stream)
  rw [List.isEmpty_iff, ← List.length_eq_zero_iff] at hTaken
  rw [List.length_append] at hLength
  omega

/-- Drops the line ending of a piece: a line feed and one carriage return before it. -/
def dropLineEnding (piece : List Char) : List Char :=
  match piece.reverse with
  | '\n' :: '\r' :: rest => rest.reverse
  | '\n' :: rest => rest.reverse
  | _ => piece

def lines (s : String) : List String :=
  (cutAfter '\n' s.toList).map fun piece => String.ofList (dropLineEnding piece)

end TranscodingEngines.Text
