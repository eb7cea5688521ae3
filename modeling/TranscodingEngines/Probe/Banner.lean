import TranscodingEngines.Text.Blank
import TranscodingEngines.Text.Letters

/-!
# Version banners

Each tool states its version in a banner line of a shape of its own. Words of a banner are
recognised up to simple case folding, and gaps between them are runs of blank characters. A framed
version stands between a word at the very start of the line and a closing word; among the ways to
read the line the one with the longest first gap counts, and among those the shortest version. A
marked version is the word after a marker that may stand anywhere; the first place that fits counts.
-/

set_option autoImplicit false

namespace TranscodingEngines

namespace Banner

def afterWord : List Char → List Char → Option (List Char)
  | [], rest => some rest
  | _ :: _, [] => none
  | w :: ws, c :: cs => if Text.foldLetter w = Text.foldLetter c then afterWord ws cs else none

/-- What is left after a gap of at least one blank character. -/
def afterGap (cs : List Char) : Option (List Char) :=
  match cs with
  | c :: rest => if Text.isBlankChar c then some (rest.dropWhile Text.isBlankChar) else none
  | [] => none

def closesHere (closing : List Char) (cs : List Char) : Bool :=
  ((afterGap cs).bind (afterWord closing)).isSome

/-- The shortest version from here on that a gap and the closing word follow. It stays within the
line. -/
def shortestVersion (closing : List Char) : List Char → Option (List Char)
  | [] => none
  | c :: rest =>
    if closesHere closing (c :: rest) then some []
    else if c = '\n' then none
    else (shortestVersion closing rest).map (c :: ·)

/-- The version between an opening gap and a closing word. The gap is taken at its full length, and
every shorter gap leaves blanks to the version; with those, the only further reading is the empty
version in front of the last blank, which needs the closing word right behind the gap. -/
def versionBehind (closing : List Char) (gap rest : List Char) : Option (List Char) :=
  match shortestVersion closing rest with
  | some version => some version
  | none => if 2 ≤ gap.length && (afterWord closing rest).isSome then some [] else none

def framed (opening closing : String) (line : String) : Option String :=
  ((afterWord opening.toList line.toList).bind fun rest =>
    match rest.takeWhile Text.isBlankChar with
    | [] => none
    | gap => versionBehind closing.toList gap (rest.dropWhile Text.isBlankChar)).map String.ofList

def firstPlace {α : Type} (read : List Char → Option α) : List Char → Option α
  | [] => read []
  | c :: rest =>
    match read (c :: rest) with
    | some found => some found
    | none => firstPlace read rest

def wordHere (cs : List Char) : Option (List Char) :=
  match cs.takeWhile (!Text.isBlankChar ·) with
  | [] => none
  | word => some word

def afterBlank : List Char → Option (List Char)
  | c :: rest => if Text.isBlankChar c then some rest else none
  | [] => none

/-- The version in a line of the shape `tsMuxeR. Version 2.6.12 …`, which goes on after it. -/
def muxerVersion (line : String) : Option String :=
  (firstPlace (fun cs => do
    let gap ← afterWord "tsMuxeR.".toList cs
    let label ← afterGap gap
    let blank ← afterWord "Version".toList label
    let rest ← afterBlank blank
    let word ← wordHere rest
    let _ ← afterGap (rest.drop word.length)
    pure word) line.toList).map String.ofList

def rawDecoderVersion (line : String) : Option String :=
  (firstPlace (fun cs => do
    let blank ← afterWord "decoder".toList cs
    let quoted ← afterBlank blank
    let second ← afterWord "\"dcraw\"".toList quoted
    let rest ← afterBlank second
    wordHere rest) line.toList).map String.ofList

def ffmpegVersion (line : String) : Option String := framed "ffmpeg version" "Copyright" line

def mencoderVersion (line : String) : Option String := framed "MEncoder" "(C)" line

end Banner

end TranscodingEngines
