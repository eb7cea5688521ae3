import TranscodingEngines.Host.Script.Tool.Basic
import TranscodingEngines.Host.Script.Calculation
import TranscodingEngines.Host.Script.Decimal
import TranscodingEngines.Host.Script.Pattern
import TranscodingEngines.Host.Script.Printing

/-!
# Programs about characters and columns

Lines, words and characters are counted, cut out, replaced, sorted and told apart.
-/

set_option autoImplicit false

namespace TranscodingEngines.Script

/-! ## wc -/

/-- The counts of an input: lines, words, characters, and the length of the longest line. -/
structure Counts where
  lines : Nat
  words : Nat
  chars : Nat
  longest : Nat

def lineWidth (line : List Char) : Nat :=
  line.foldl (fun n c => if c == '\t' then n + 8 - n % 8 else if ' ' ≤ c && c ≤ '~' then n + 1
    else n) 0

def countsOf (chars : List Char) : Counts :=
  let words := (chars.foldl (fun (found : Nat × Bool) c =>
    if isWhite c then (found.1, false) else (if found.2 then found.1 else found.1 + 1, true))
    (0, false)).1
  ⟨(chars.filter (· == '\n')).length, words, chars.length,
    (bareLines chars).foldl (fun most line => max most (lineWidth line)) 0⟩

def wcTool : Tool := fun call =>
  let table : SwitchTable := ⟨"clmwL", "", [("bytes", 'c'), ("chars", 'm'), ("lines", 'l'),
    ("words", 'w'), ("max-line-length", 'L')], false⟩
  call.withSwitches table 1 fun a => do
    let wants (letter : Char) : Bool :=
      if a.switches.isEmpty then "lwc".toList.contains letter else a.has letter
    let shown (counts : Counts) : List Nat :=
      (if wants 'l' then [counts.lines] else []) ++ (if wants 'w' then [counts.words] else [])
        ++ (if wants 'm' then [counts.chars] else []) ++ (if wants 'c' then [counts.chars] else [])
        ++ (if wants 'L' then [counts.longest] else [])
    let names := if a.operands.isEmpty then ["-"] else a.operands
    let view ← Task.look
    let sizeOf (name : String) : Option (Option Nat) :=
      if name == "-" then
        match view.channel? 0 with
        | some (.file at_ _ _ _ _) => match view.host.files.get? at_ with
          | some (.file _ bytes) => some (some bytes.length)
          | _ => some none
        | _ => some none
      else match view.host.find ⟨ofRaw name⟩ with
        | .ok (_, .file _ bytes) => some (some bytes.length)
        | .ok _ => some none
        | .error _ => none
    let sizes := names.filterMap sizeOf
    let isSingle := names.length == 1 && (shown ⟨0, 0, 0, 0⟩).length == 1
    let total := sizes.foldl (fun n size => n + size.getD 0) 0
    let width := if isSingle then 1
      else max (toString total).length (if sizes.contains none then 7 else 1)
    let line (counts : Counts) (name : String) : String :=
      " ".intercalate ((shown counts).map fun n => padFront width (toString n))
        ++ (if name.isEmpty then "" else " " ++ name) ++ "\n"
    let mut sum : Counts := ⟨0, 0, 0, 0⟩
    let mut status := 0
    for name in names do
      let shownName := if a.operands.isEmpty then "" else name
      match ← readPath name with
      | .ok bytes =>
        let counts := countsOf (rawChars bytes)
        let _ ← Task.write 1 (bytesOf (line counts shownName))
        sum := ⟨sum.lines + counts.lines, sum.words + counts.words, sum.chars + counts.chars,
          max sum.longest counts.longest⟩
      | .error cause =>
        call.complain (plainFault (if name == "-" then "standard input" else name) cause)
        status := 1
        if cause == .isDirectory then
          let _ ← Task.write 1 (bytesOf (line ⟨0, 0, 0, 0⟩ shownName))
    if 1 < names.length then
      let _ ← Task.write 1 (bytesOf (line sum "total"))
    pure status

/-! ## cut -/

structure PlaceRange where
  first : Nat
  last : Option Nat

def placeRanges (fields : Bool) (text : String) : Except String (List PlaceRange) :=
  let zero := if fields then "fields are numbered from 1"
    else "byte/character positions are numbered from 1"
  let position (part : String) : Except String Nat :=
    match plainNumber? part with
    | some 0 => .error zero
    | some n => .ok n
    | none => .error ((if fields then "invalid field value '" else
        "invalid byte/character position '") ++ part ++ "'")
  (splitWhere (fun c => c == ',' || c == ' ' || c == '\t') text.toList).mapM fun part => do
    match splitWhere (· == '-') part with
    | [[]] => throw zero
    | [n] =>
      let n ← position (String.ofList n)
      pure (PlaceRange.mk n (some n))
    | [[], []] => throw "invalid range with no endpoint: -"
    | [[], m] => pure (PlaceRange.mk 1 (some (← position (String.ofList m))))
    | [n, []] => pure (PlaceRange.mk (← position (String.ofList n)) none)
    | [n, m] =>
      let n ← position (String.ofList n)
      let m ← position (String.ofList m)
      if m < n then throw "invalid decreasing range" else pure (PlaceRange.mk n (some m))
    | _ => throw (if fields then "invalid field range" else "invalid byte or character range")

def joinRanges (ranges : List PlaceRange) : List PlaceRange :=
  let sorted := ranges.mergeSort fun a b => a.first ≤ b.first
  (sorted.foldl (fun found range =>
    match found with
    | [] => [range]
    | before :: rest =>
      if before.last.all (range.first ≤ ·) then
        let last := match before.last, range.last with
          | some a, some b => some (max a b)
          | _, _ => none
        ⟨before.first, last⟩ :: rest
      else range :: found) []).reverse

def otherRanges (ranges : List PlaceRange) : List PlaceRange :=
  let (found, next) := (joinRanges ranges).foldl (fun (found : List PlaceRange × Option Nat) range =>
    match found.2 with
    | none => found
    | some next =>
      let before : List PlaceRange :=
        if next < range.first then [⟨next, some (range.first - 1)⟩] else []
      (before ++ found.1, range.last.map (· + 1))) ([], some 1)
  let last : List PlaceRange := match next with
    | some next => [⟨next, none⟩]
    | none => []
  found.reverse ++ last

def PlaceRange.of {α : Type} (range : PlaceRange) (members : List α) : List α :=
  let rest := members.drop (range.first - 1)
  match range.last with
  | some last => rest.take (last + 1 - range.first)
  | none => rest

def cutTool : Tool := fun call =>
  let table : SwitchTable := ⟨"nszC", "bcdfo", [("bytes", 'b'), ("characters", 'c'),
    ("delimiter", 'd'), ("fields", 'f'), ("only-delimited", 's'), ("complement", 'C'),
    ("output-delimiter", 'o')], false⟩
  call.withSwitches table 1 fun a => do
    let lists := a.switches.filter fun s => "bcf".toList.contains s.1
    match lists with
    | [] => call.misuse "you must specify a list of bytes, characters, or fields" 1
    | [(letter, text)] =>
      let fields := letter == 'f'
      let delimiter := ((a.value? 'd').getD "\t").toList
      match placeRanges fields text with
      | .error fault => call.misuse fault 1
      | .ok ranges =>
        if 1 < delimiter.length then call.misuse "the delimiter must be a single character" 1
        else if !fields && a.has 'd' then
          call.misuse "an input delimiter may be specified only when operating on fields" 1
        else if !fields && a.has 's' then
          call.misuse
            "suppressing non-delimited lines makes sense\n\tonly when operating on fields" 1
        else
          let sign := delimiter.headD '\x00'
          let ranges := if a.has 'C' then otherRanges ranges else joinRanges ranges
          let between := match a.value? 'o' with
            | some text => text.toList
            | none => if fields then [sign] else []
          mapLines call plainFault a.operands fun line =>
            let line := bareLine line
            if fields then
              let parts := splitWhere (· == sign) line
              if parts.length == 1 then if a.has 's' then [] else ended line
              else ended (between.intercalate (ranges.flatMap fun range => range.of parts))
            else
              let pieces := ranges.map fun range => range.of line
              ended (between.intercalate (pieces.filter (!·.isEmpty)))
    | _ => call.misuse "only one list may be specified" 1

/-! ## tr -/

/-- What a text describes: characters one by one, and one that fills up, with the number of those
before it. -/
structure CharList where
  chars : List Char
  filler : Option (Nat × Char)
  kinds : List String

def listChar (cs : List Char) : Option (Char × List Char) :=
  match cs with
  | [] => none
  | '\\' :: rest =>
    let octal := (splitDigits 8 (rest.take 3)).1
    if !octal.isEmpty then some (byteChar (digitsValue 8 octal), rest.drop octal.length)
    else
      match rest with
      | [] => some ('\\', [])
      | c :: rest => some ((letterEscape c).getD c, rest)
  | c :: rest => some (c, rest)

def allChars : List Char := (List.range 256).map Char.ofNat

def readCharList : (steps : Nat) → List Char → CharList → Except String CharList
  | 0, _, found => .ok found
  | steps + 1, cs, found =>
    let add (more rest : List Char) : Except String CharList :=
      readCharList steps rest { found with chars := found.chars ++ more }
    let plain (_ : Unit) : Except String CharList :=
      match listChar cs with
      | none => .ok found
      | some (first, rest) =>
        match rest with
        | '-' :: more =>
          match listChar more with
          | none => add [first, '-'] []
          | some (last, after) =>
            if last < first then
              .error ("range-endpoints of '" ++ String.singleton first ++ "-"
                ++ String.singleton last ++ "' are in reverse collating sequence order")
            else add (allChars.filter fun c => first ≤ c && c ≤ last) after
        | rest => add [first] rest
    match cs with
    | '[' :: ':' :: rest =>
      let name := rest.takeWhile fun c => c.isAlpha
      match rest.drop name.length with
      | ':' :: ']' :: after =>
        match namedKind? (String.ofList name) with
        | some holds =>
          readCharList steps after { found with
            chars := found.chars ++ allChars.filter holds
            kinds := String.ofList name :: found.kinds }
        | none => .error ("invalid character class '" ++ String.ofList name ++ "'")
      | _ => plain ()
    | '[' :: '=' :: c :: '=' :: ']' :: rest => add [c] rest
    | '[' :: inner =>
      match listChar inner with
      | some (c, '*' :: rest) =>
        let digits := rest.takeWhile Char.isDigit
        match rest.drop digits.length with
        | ']' :: after =>
          let count := if digits.head? == some '0' then digitsValue 8 (splitDigits 8 digits).1
            else digitsValue 10 (splitDigits 10 digits).1
          if count == 0 then
            readCharList steps after { found with filler := some (found.chars.length, c) }
          else add (List.replicate count c) after
        | _ => plain ()
      | _ => plain ()
    | _ => plain ()

def charList (text : String) : Except String CharList :=
  readCharList (text.length + 1) text.toList ⟨[], none, []⟩

/-- The characters of a list, filled up to a length; the last one is repeated if nothing else
fills. -/
def CharList.upTo (list : CharList) (length : Nat) (repeats : Bool) : List Char :=
  match list.filler with
  | some (place, c) =>
    list.chars.take place ++ List.replicate (length - list.chars.length) c ++ list.chars.drop place
  | none =>
    match list.chars.getLast? with
    | some last =>
      if repeats then list.chars ++ List.replicate (length - list.chars.length) last
      else list.chars
    | none => []

/-- Sends characters through tables: those that are dropped, what others become, and those that are
written once if they come several times in a row. -/
def passChars (call : ToolCall) (drops squeezes : Array Bool) (table : Array Char) :
    (steps : Nat) → (last : Option Char) → Task Nat
  | 0, _ => pure 0
  | steps + 1, last => do
    match ← Task.read 0 32768 none with
    | .error cause =>
      call.complain ("read error: " ++ cause.words)
      pure 1
    | .ok [] => pure 0
    | .ok bytes =>
      let (found, last) := bytes.foldl (fun (state : List Char × Option Char) b =>
        if drops.getD b.toNat false then state
        else
          let c := table.getD b.toNat '\x00'
          if state.2 == some c && squeezes.getD c.toNat false then state
          else (c :: state.1, some c)) ([], last)
      match ← Task.write 1 (rawBytes found.reverse) with
      | .ok () => passChars call drops squeezes table steps last
      | .error cause =>
        call.complain ("write error: " ++ cause.words)
        pure 1

def trTool : Tool := fun call =>
  let table : SwitchTable := ⟨"cCdst", "", [("complement", 'c'), ("delete", 'd'),
    ("squeeze-repeats", 's'), ("truncate-set1", 't')], true⟩
  call.withSwitches table 1 fun a => do
    let deletes := a.has 'd'
    let squeezes := a.has 's'
    let translates := !deletes && a.operands.length == 2
    let least := if deletes == squeezes then 2 else 1
    let most := if deletes && !squeezes then 1 else 2
    match a.operands with
    | [] => call.misuse "missing operand" 1
    | first :: others =>
      if a.operands.length < least then
        call.misuse ("missing operand after '" ++ first ++ "'\n"
          ++ (if squeezes then
              "Two strings must be given when both deleting and squeezing repeats."
            else "Two strings must be given when translating.")) 1
      else if most < a.operands.length then
        call.misuse ("extra operand '" ++ a.operands.getD most "" ++ "'"
          ++ (if most == 1 && a.operands.length == 2 then
              "\nOnly one string may be given when deleting without squeezing repeats."
            else "")) 1
      else
        let lists : Except String (CharList × CharList) := do
          pure (← charList first, ← charList (others.headD ""))
        match lists with
        | .error text =>
          call.complain text
          pure 1
        | .ok (source, target) =>
          let complements := a.has 'c' || a.has 'C'
          let chars := if complements then allChars.filter fun c => !source.chars.contains c
            else source.chars
          if translates && target.kinds.any fun kind => kind != "lower" && kind != "upper" then
            call.complain ("when translating, the only character classes that may appear in\n"
              ++ "string2 are 'upper' and 'lower'")
            pure 1
          else if translates && !a.has 't' && target.chars.isEmpty && target.filler.isNone
              && !chars.isEmpty then
            call.complain "when not truncating set1, string2 must be non-empty"
            pure 1
          else
            let images := target.upTo chars.length (!a.has 't')
            let table := (chars.zip images).foldl (fun (table : Array Char) pair =>
              table.setIfInBounds pair.1.toNat pair.2) allChars.toArray
            let marks (marked : List Char) : Array Bool :=
              marked.foldl (fun (found : Array Bool) c => found.setIfInBounds c.toNat true)
                (Array.replicate 256 false)
            let squeezed := if !squeezes then []
              else if a.operands.length == 2 then target.upTo 0 false else chars
            passChars call (marks (if deletes then chars else [])) (marks squeezed)
              (if translates then table else allChars.toArray) mostPortions none

/-! ## sort -/

structure SortOrder where
  letters : List Char
  deriving DecidableEq, Repr

def SortOrder.has (order : SortOrder) (letter : Char) : Bool := order.letters.contains letter

/-- A part of a line by which lines are sorted: the fields and characters of its beginning and its
end. -/
structure SortKey where
  field : Nat
  char : Nat
  lastField : Option Nat
  lastChar : Nat
  order : SortOrder
  lastLetters : List Char

def compareChars : List Char → List Char → Ordering
  | [], [] => .eq
  | [], _ => .lt
  | _, [] => .gt
  | a :: as, b :: bs => if a < b then .lt else if b < a then .gt else compareChars as bs

/-- The number at the front of a text, as a multiple of a power of ten that is small enough for all;
none counts as zero. -/
def frontNumber (cs : List Char) : Bool × Nat × Nat :=
  let cs := cs.dropWhile fun c => c == ' ' || c == '\t'
  let (negative, cs) := match cs with
    | '-' :: rest => (true, rest)
    | cs => (false, cs)
  let (whole, places, _) := splitPlaces 10 cs
  (negative, digitsValue 10 (whole ++ places), places.length)

def compareNumbers (a b : List Char) : Ordering :=
  let signed (n : Bool × Nat × Nat) (places : Nat) : Int :=
    let size : Int := n.2.1 * Nat.pow 10 places
    if n.1 then -size else size
  let x := frontNumber a
  let y := frontNumber b
  compare (signed x y.2.2) (signed y x.2.2)

def sizeRank (cs : List Char) : Nat :=
  let cs := cs.dropWhile fun c => c == ' ' || c == '\t' || c == '-'
  let (_, _, rest) := splitPlaces 10 cs
  match rest with
  | c :: _ => if c == 'k' then 1 else ("KMGTPEZY".toList.findIdx? (· == c)).elim 0 (· + 1)
  | [] => 0

def monthRank (cs : List Char) : Nat :=
  let name := String.ofList (((cs.dropWhile isWhite).take 3).map Char.toUpper)
  let months := ["JAN", "FEB", "MAR", "APR", "MAY", "JUN", "JUL", "AUG", "SEP", "OCT", "NOV", "DEC"]
  (months.findIdx? (· == name)).elim 0 (· + 1)

/-- Compares quantities at the front of texts; what is none comes first. -/
def compareQuantities (a b : List Char) : Ordering :=
  let rank (cs : List Char) : Nat × Int × Nat :=
    match splitQuantity cs with
    | none => (0, 0, 1)
    | some (.notNumber _, _) => (1, 0, 1)
    | some (.infinite negative, _) => (if negative then 2 else 4, 0, 1)
    | some (.fraction f, _) =>
      let size : Int := f.numerator
      (3, if f.negative then -size else size, f.denominator)
  let (i, n, d) := rank a
  let (j, m, e) := rank b
  (compare i j).then (compare (n * e) (m * d))

def SortOrder.compare (order : SortOrder) (a b : List Char) : Ordering :=
  let result :=
    if order.has 'n' then compareNumbers a b
    else if order.has 'g' then compareQuantities a b
    else if order.has 'h' then
      let sign (cs : List Char) : Int := if (frontNumber cs).1 then -1 else 1
      let x : Int := sign a * sizeRank a
      let y : Int := sign b * sizeRank b
      (Ord.compare x y).then (compareNumbers a b)
    else if order.has 'M' then Ord.compare (monthRank a) (monthRank b)
    else
      let kept (cs : List Char) : List Char :=
        let cs := if order.has 'd' then cs.filter fun c => c.isAlphanum || c == ' ' || c == '\t'
          else cs
        let cs := if order.has 'i' then cs.filter fun c => ' ' ≤ c && c ≤ '~' else cs
        if order.has 'f' then cs.map Char.toUpper else cs
      compareChars (kept a) (kept b)
  if order.has 'r' then result.swap else result

def behindFields (separator : Option Char) : (fields : Nat) → List Char → List Char
  | 0, cs => cs
  | fields + 1, cs =>
    match separator with
    | some sign =>
      let rest := cs.dropWhile (· != sign)
      if fields == 0 then rest.drop 1 else behindFields separator fields (rest.drop 1)
    | none =>
      let rest := cs.dropWhile fun c => c == ' ' || c == '\t'
      behindFields separator fields (rest.dropWhile fun c => !(c == ' ' || c == '\t'))

def SortKey.part (key : SortKey) (separator : Option Char) (line : List Char) : List Char :=
  let isBlank (c : Char) : Bool := c == ' ' || c == '\t'
  let skip (skips : Bool) (cs : List Char) : List Char := if skips then cs.dropWhile isBlank else cs
  let start := (skip (key.order.has 'b') (behindFields separator (key.field - 1) line)).drop
    (key.char - 1)
  match key.lastField with
  | none => start
  | some field =>
    let after :=
      if key.lastChar == 0 then
        match separator with
        | some sign => (behindFields separator (field - 1) line).dropWhile (· != sign)
        | none => behindFields separator field line
      else
        (skip (key.lastLetters.contains 'b') (behindFields separator (field - 1) line)).drop
          key.lastChar
    start.take (start.length - after.length)

def orderLetters : List Char := "bdfgiMhnRrV".toList

def readSortKey (globals : List Char) (text : String) : Except String SortKey := do
  let number (what : String) (cs : List Char) : Except String (Nat × List Char) :=
    match splitDigits 10 cs with
    | ([], _) =>
      .error ("invalid number " ++ what ++ ": invalid count at start of '" ++ String.ofList cs ++ "'")
    | (digits, rest) => .ok (digitsValue 10 digits, rest)
  let position (what : String) (cs : List Char) :
      Except String (Nat × Option Nat × List Char × List Char) := do
    let (field, rest) ← number what cs
    if field == 0 then
      throw ("field number is zero: invalid field specification '" ++ text ++ "'")
    let (char, rest) ← (match rest with
      | '.' :: rest => do
        let (n, rest) ← number "after '.'" rest
        pure (some n, rest)
      | rest => pure (none, rest))
    let letters := rest.takeWhile orderLetters.contains
    pure (field, char, letters, rest.drop letters.length)
  let (field, char, letters, rest) ← position "at field start" text.toList
  if char == some 0 then
    throw ("character offset is zero: invalid field specification '" ++ text ++ "'")
  let (last, more, rest) ← (match rest with
    | ',' :: rest => do
      let (field, char, letters, rest) ← position "after ','" rest
      pure (some (field, char.getD 0), letters, rest)
    | rest => pure (none, [], rest))
  if !rest.isEmpty then
    throw ("stray character in field spec: invalid field specification '" ++ text ++ "'")
  let own := letters ++ more.filter (· != 'b')
  let isPlain := letters.isEmpty && more.isEmpty
  pure {
    field := field, char := char.getD 1, lastField := last.map (·.1)
    lastChar := (last.map (·.2)).getD 0
    order := ⟨if isPlain then globals else own⟩
    lastLetters := if isPlain then globals else more }

def sortTool : Tool := fun call =>
  let table : SwitchTable := ⟨"bdfgiMhnRrVcCmsuz", "koStT", [("reverse", 'r'), ("unique", 'u'),
    ("numeric-sort", 'n'), ("key", 'k'), ("field-separator", 't'), ("ignore-case", 'f'),
    ("output", 'o'), ("stable", 's'), ("check", 'c'), ("general-numeric-sort", 'g'),
    ("human-numeric-sort", 'h'), ("ignore-leading-blanks", 'b'), ("month-sort", 'M')], false⟩
  call.withSwitches table 2 fun a => do
    let globals := (a.switches.map (·.1)).filter orderLetters.contains
    let refuse (text : String) : Task Nat := do
      call.complain text
      pure 2
    let keyTexts := a.switches.filterMap fun s => if s.1 == 'k' then some s.2 else none
    let separator := a.value? 't'
    match keyTexts.mapM (readSortKey globals), separator.map String.length with
    | .error text, _ => refuse text
    | _, some 0 => refuse "empty tab"
    | .ok keys, length =>
      if length.any (1 < ·) && separator != some "\\0" then
        refuse ("multi-character tab '" ++ separator.getD "" ++ "'")
      else
        let sign := separator.bind (·.toList.head?)
        let order : SortOrder := ⟨globals⟩
        let byKeys (x y : List Char) : Ordering :=
          if keys.isEmpty then
            if globals.all (· == 'r') then .eq
            else { order with letters := globals }.compare (if order.has 'b' then
              x.dropWhile isSpace else x) (if order.has 'b' then y.dropWhile isSpace else y)
          else keys.foldl (fun found key =>
            found.then (key.order.compare (key.part sign x) (key.part sign y))) .eq
        let isPlain := keys.isEmpty && globals.all (· == 'r')
        let whole (x y : List Char) : Ordering :=
          if order.has 'r' then compareChars y x else compareChars x y
        let inOrder (x y : List Char) : Ordering :=
          if isPlain then whole x y
          else if a.has 's' || a.has 'u' then byKeys x y
          else (byKeys x y).then (whole x y)
        let fault (name : String) (cause : SystemError) : String :=
          if cause == .isDirectory then "read failed: " ++ name ++ ": " ++ cause.words
          else "cannot read: " ++ name ++ ": " ++ cause.words
        let (inputs, fine) ← readInputs call fault a.operands
        if !fine then pure 2
        else
          let lines := inputs.flatMap fun input => bareLines input.2
          if a.has 'c' || a.has 'C' then
            let pairs := lines.zip (lines.drop 1)
            let isOff (pair : List Char × List Char) : Bool :=
              let found := inOrder pair.1 pair.2
              found == .gt || (a.has 'u' && found == .eq)
            match pairs.findIdx? isOff with
            | none => pure 0
            | some i =>
              if a.has 'c' then
                let name := (inputs.map (·.1)).headD "-"
                let line := String.ofList ((pairs.map (·.2)).getD i [])
                call.complain (name ++ ":" ++ toString (i + 2) ++ ": disorder: " ++ line)
              pure 1
          else
            let sorted := lines.mergeSort fun x y => inOrder x y != .gt
            let kept := if !a.has 'u' then sorted
              else (sorted.foldl (fun (found : List (List Char)) line =>
                match found with
                | [] => [line]
                | before :: _ => if inOrder before line == .eq then found else line :: found)
                []).reverse
            let output := kept.flatMap ended
            match a.value? 'o' with
            | none => call.finish output 0
            | some name =>
              match ← Task.change (.write ⟨ofRaw name⟩ (rawBytes output)) with
              | .ok () => pure 0
              | .error cause => refuse ("open failed: " ++ name ++ ": " ++ cause.words)

/-! ## uniq -/

/-- Shows lines that come several times in a row once. -/
def uniqTool : Tool := fun call =>
  let table : SwitchTable := ⟨"cdDiuz", "fsw", [("count", 'c'), ("repeated", 'd'),
    ("ignore-case", 'i'), ("unique", 'u'), ("skip-fields", 'f'), ("skip-chars", 's'),
    ("check-chars", 'w'), ("all-repeated", 'D')], false⟩
  call.withSwitches table 1 fun a => do
    let number (letter : Char) (what : String) : Except String (Option Nat) :=
      match a.value? letter with
      | none => .ok none
      | some text =>
        match plainNumber? text with
        | some n => .ok (some n)
        | none => .error (text ++ ": invalid number of " ++ what)
    let numbers : Except String (Option Nat × Option Nat × Option Nat) := do
      pure (← number 'f' "fields to skip", ← number 's' "bytes to skip",
        ← number 'w' "bytes to compare")
    match numbers, a.operands.drop 2 with
    | .error text, _ =>
      call.complain text
      pure 1
    | _, extra :: _ => call.misuse ("extra operand '" ++ extra ++ "'") 1
    | .ok (fields, chars, width), [] =>
      let compared (line : List Char) : List Char :=
        let rest := (behindFields none (fields.getD 0) line).drop (chars.getD 0)
        let rest := match width with
          | some n => rest.take n
          | none => rest
        if a.has 'i' then rest.map Char.toUpper else rest
      /- The line that came last, how often it came, and the form in which it is compared. -/
      let shown (group : List (List Char)) : List Char :=
        let count := group.length
        let fits := if a.has 'd' || a.has 'D' then 1 < count
          else if a.has 'u' then count == 1 else true
        if !fits then []
        else if a.has 'D' then group.reverse.flatMap ended
        else
          let front := if a.has 'c' then (padFront 7 (toString count) ++ " ").toList else []
          front ++ ended (group.getLast?.getD [])
      let take (group : List (List Char)) (line : List Char) :
          List Char × List (List Char) :=
        let line := bareLine line
        match group with
        | [] => ([], [line])
        | before :: _ =>
          if compared before == compared line then ([], line :: group) else (shown group, [line])
      let atEnd (group : List (List Char)) : List Char :=
        if group.isEmpty then [] else shown group
      let fault (name : String) (cause : SystemError) : String :=
        if cause == .isDirectory then "error reading '" ++ name ++ "': " ++ cause.words
        else name ++ ": " ++ cause.words
      match a.operands[1]? with
      | some target =>
        if target != "-" then
          if let .error cause ← Task.connect 1 .write ⟨ofRaw target⟩ then
            call.complain (target ++ ": " ++ cause.words)
            return 1
      | none => pure ()
      passLines call fault take atEnd (64 * mostPortions) (.ofNames (a.operands.take 1)) [] []

end TranscodingEngines.Script
