import TranscodingEngines.Host.Script.Tool.Basic
import TranscodingEngines.Host.Script.Condition
import TranscodingEngines.Host.Script.Calculation

/-!
# Programs that pass lines on

Whole inputs, the first or last lines of them, lines with numbers, and copies for several readers.
-/

set_option autoImplicit false

namespace TranscodingEngines.Script

/-! ## cat -/

structure LineShow where
  numbers : Bool
  numbersNonBlank : Bool
  squeezes : Bool
  ends : Bool
  tabs : Bool
  others : Bool

def shownChar (show_ : LineShow) (c : Char) : List Char :=
  let n := c.toNat
  let visible (n : Nat) : List Char :=
    if n < 32 then ['^', Char.ofNat (n + 64)]
    else if n == 127 then ['^', '?']
    else [Char.ofNat n]
  if c == '\t' then if show_.tabs then ['^', 'I'] else [c]
  else if !show_.others || c == '\n' then [c]
  else if n < 128 then visible n
  else 'M' :: '-' :: visible (n - 128)

/-- Shows lines, given how many were numbered and how many blank lines came last. -/
def showLine (show_ : LineShow) (found : List (List Char) × Nat × Nat) (line : List Char) :
    List (List Char) × Nat × Nat :=
  let (done, count, blanks) := found
  let isBlank := line == ['\n']
  let blanks := if isBlank then blanks + 1 else 0
  if show_.squeezes && 1 < blanks then (done, count, blanks)
  else
    let isNumbered := if show_.numbersNonBlank then !isBlank else show_.numbers
    let count := if isNumbered then count + 1 else count
    let front := if isNumbered then (padFront 6 (toString count) ++ "\t").toList else []
    let body := line.flatMap fun c =>
      if c == '\n' && show_.ends then ['$', '\n'] else shownChar show_ c
    ((front ++ body) :: done, count, blanks)

/-- Copies a stream to standard output. Nothing stands for success. -/
def copyStream (stream : Nat) : (steps : Nat) → Task (Option (Bool × SystemError))
  | 0 => pure none
  | steps + 1 => do
    match ← Task.read stream 131072 none with
    | .ok [] => pure none
    | .ok bytes =>
      match ← Task.write 1 bytes with
      | .ok () => copyStream stream steps
      | .error cause => pure (some (true, cause))
    | .error cause => pure (some (false, cause))

def catTool : Tool := fun call =>
  let table : SwitchTable := ⟨"AbeEnstTuv", "",
    [("number", 'n'), ("number-nonblank", 'b'), ("show-all", 'A'), ("show-ends", 'E'),
      ("show-nonprinting", 'v'), ("show-tabs", 'T'), ("squeeze-blank", 's')], false⟩
  call.withSwitches table 1 fun a => do
    let any (letters : String) : Bool := letters.toList.any a.has
    let show_ : LineShow :=
      ⟨a.has 'n', a.has 'b', a.has 's', any "AeE", any "AtT", any "AetvT" && any "Aetv"⟩
    let names := if a.operands.isEmpty then ["-"] else a.operands
    if any "AbeEnstTv" then
      let (inputs, fine) ← readInputs call plainFault names
      let lines := linesOf (inputs.flatMap (·.2))
      let (shown, _, _) := lines.foldl (showLine show_) ([], 0, 0)
      call.finish shown.reverse.flatten (if fine then 0 else 1)
    else
      let rec go (status : Nat) : List String → Task Nat
        | [] => pure status
        | name :: rest => do
          let opened ← if name == "-" then pure (.ok ()) else Task.connect 3 .read ⟨ofRaw name⟩
          match opened with
          | .error cause =>
            call.complain (plainFault name cause)
            go 1 rest
          | .ok () =>
            let result ← copyStream (if name == "-" then 0 else 3) mostPortions
            if name != "-" then Task.close 3
            match result with
            | none => go status rest
            | some (true, cause) =>
              call.complain ("write error: " ++ cause.words)
              pure 1
            | some (false, cause) =>
              call.complain (plainFault name cause)
              go 1 rest
      let status ← go 0 names
      if names.contains "-" && ((← Task.look).channel? 0).isNone then
        call.complain ("closing standard input: " ++ SystemError.badStream.words)
      pure status

def tacTool : Tool := fun call =>
  call.withSwitches ⟨"br", "s", [], false⟩ 1 fun a => do
    let fault (name : String) (cause : SystemError) : String :=
      if cause == .isDirectory then name ++ ": read error: " ++ cause.words
      else "failed to open '" ++ name ++ "' for reading: " ++ cause.words
    let (inputs, fine) ← readInputs call fault a.operands
    call.finish (inputs.flatMap fun input => (linesOf input.2).reverse.flatten)
      (if fine then 0 else 1)

/-! ## head and tail -/

def sizedNumber? (text : String) : Option Nat :=
  let (digits, rest) := splitDigits 10 text.toList
  let power (base exponent : Nat) : Nat := Nat.pow base exponent
  let scale : Option Nat := match String.ofList rest with
    | "" => some 1
    | "b" => some 512
    | "kB" => some 1000
    | "k" | "K" | "KiB" => some 1024
    | "MB" => some (power 1000 2)
    | "m" | "M" | "MiB" => some (power 1024 2)
    | "GB" => some (power 1000 3)
    | "G" | "GiB" => some (power 1024 3)
    | _ => none
  if digits.isEmpty then none else scale.map fun n => digitsValue 10 digits * n

structure Extent where
  count : Nat
  ofBytes : Bool
  fromOther : Bool

def headingOf (name : String) : List Char :=
  ("==> " ++ (if name == "-" then "standard input" else name) ++ " <==\n").toList

def withHeadings (isQuiet : Bool) (parts : List (String × List Char)) : List Char :=
  if isQuiet then parts.flatMap (·.2)
  else
    ((parts.map fun part => headingOf part.1 ++ part.2).intersperse ['\n']).flatten

def headOf (extent : Extent) (chars : List Char) : List Char :=
  if extent.ofBytes then
    chars.take (if extent.fromOther then chars.length - extent.count else extent.count)
  else
    let lines := linesOf chars
    (lines.take (if extent.fromOther then lines.length - extent.count else extent.count)).flatten

def tailOf (extent : Extent) (chars : List Char) : List Char :=
  if extent.ofBytes then
    chars.drop (if extent.fromOther then extent.count - 1 else chars.length - extent.count)
  else
    let lines := linesOf chars
    let skipped := if extent.fromOther then extent.count - 1 else lines.length - extent.count
    (lines.drop skipped).flatten

/-- Passes the front of a stream on, and reads no more than needed. Nothing is left of a file that
is read line by line. The value says what went wrong, and whether that was in writing. -/
def passFront (stream : Nat) (lineWise : Bool) (extent : Extent) : (steps : Nat) → (left : Nat) →
    Task (Option (Bool × SystemError))
  | 0, _ => pure none
  | steps + 1, left => do
    if left == 0 then pure none
    else
      let most := if extent.ofBytes then min left 8192 else 8192
      let stop := if lineWise && !extent.ofBytes then some 10 else none
      match ← Task.read stream most stop with
      | .error cause => pure (some (false, cause))
      | .ok [] => pure none
      | .ok bytes =>
        let part := headOf ⟨left, extent.ofBytes, false⟩ (rawChars bytes)
        match ← Task.write 1 (rawBytes part) with
        | .error cause => pure (some (true, cause))
        | .ok () =>
          let used := if extent.ofBytes then part.length else (part.filter (· == '\n')).length
          passFront stream lineWise extent steps (left - used)

/-- The first argument turned from an old form, a dash and a number, into the usual one. -/
def modernised (letter : Char) (args : List String) : List String :=
  match args with
  | first :: rest =>
    match first.toList with
    | sign :: d :: more =>
      if (sign == '-' || sign == letter) && d.isDigit then
        let digits := (d :: more).takeWhile Char.isDigit
        let others := (d :: more).drop digits.length
        let value := (if sign == '+' then "+" else "") ++ String.ofList digits
        let option := if others.contains 'c' then "-c" else "-n"
        let quiet :=
          if others.contains 'q' then ["-q"] else if others.contains 'v' then ["-v"] else []
        if others.all "lcqvb".toList.contains then quiet ++ option :: value :: rest else args
      else args
    | _ => args
  | [] => []

/-- The extent that switches ask for, or what is wrong. `other` marks a count from the other end. -/
def extentOf (a : Arguments) (other : Char) : Except String Extent :=
  match a.lastOf "nc" with
  | none => .ok ⟨10, false, false⟩
  | some letter =>
    let text := (a.value? letter).getD ""
    let digits := match text.toList with
      | '-' :: rest => rest
      | '+' :: rest => rest
      | rest => rest
    match sizedNumber? (String.ofList digits) with
    | some n => .ok ⟨n, letter == 'c', text.toList.head? == some other⟩
    | none =>
      let shown := if text.startsWith "-" then String.ofList digits else text
      .error ("invalid number of " ++ (if letter == 'c' then "bytes" else "lines") ++ ": '"
        ++ shown ++ "'")

def extentTable (extra : String) : SwitchTable :=
  ⟨"qv" ++ extra, "nc",
    [("lines", 'n'), ("bytes", 'c'), ("quiet", 'q'), ("silent", 'q'), ("verbose", 'v')], false⟩

def isQuiet (a : Arguments) : Bool :=
  match a.lastOf "qv" with
  | some 'q' => true
  | some _ => false
  | none => a.operands.length ≤ 1

def partFault (name : String) (cause : SystemError) : String :=
  if cause == .isDirectory then "error reading '" ++ name ++ "': " ++ cause.words
  else "cannot open '" ++ name ++ "' for reading: " ++ cause.words

def headTool : Tool := fun call =>
  let call := { call with args := modernised '-' call.args }
  call.withSwitches (extentTable "z") 1 fun a => do
    match extentOf a '-' with
    | .error text =>
      call.complain text
      pure 1
    | .ok extent =>
      let mut status := 0
      let mut isFirst := true
      for name in if a.operands.isEmpty then ["-"] else a.operands do
        let opened ← if name == "-" then pure (.ok ()) else Task.connect 3 .read ⟨ofRaw name⟩
        match opened with
        | .error cause =>
          call.complain (partFault name cause)
          status := 1
        | .ok () =>
          if !isQuiet a then
            let front := if isFirst then [] else ['\n']
            let _ ← Task.write 1 (rawBytes (front ++ headingOf name))
          isFirst := false
          let stream := if name == "-" then 0 else 3
          let lineWise := match (← Task.look).channel? stream with
            | some (.file _ _ _ _ _) => true
            | _ => false
          let result ← (do
            if extent.fromOther then
              match ← readStream stream mostPortions [] with
              | .error cause => pure (some (false, cause))
              | .ok bytes =>
                match ← Task.write 1 (rawBytes (headOf extent (rawChars bytes))) with
                | .ok () => pure none
                | .error cause => pure (some (true, cause))
            else passFront stream lineWise extent mostPortions extent.count :
              Task (Option (Bool × SystemError)))
          if stream != 0 then Task.close stream
          match result with
          | none => pure ()
          | some (true, cause) =>
            call.complain ("error writing 'standard output': " ++ cause.words)
            status := 1
          | some (false, cause) =>
            call.complain (partFault (if name == "-" then "standard input" else name) cause)
            status := 1
      pure status

def tailTool : Tool := fun call =>
  let call := { call with args := modernised '+' call.args }
  call.withSwitches (extentTable "fFz") 1 fun a => do
    match extentOf a '+' with
    | .error text =>
      call.complain text
      pure 1
    | .ok extent =>
      let (inputs, fine) ← readInputs call partFault a.operands
      let parts := inputs.map fun input => (input.1, tailOf extent input.2)
      call.finish (withHeadings (isQuiet a) parts) (if fine then 0 else 1)

/-! ## tee and yes -/

def passToAll (call : ToolCall) (streams : List (Nat × String)) : (steps : Nat) → (status : Nat) →
    Task Nat
  | 0, status => pure status
  | steps + 1, status => do
    match ← Task.read 0 65536 none with
    | .error cause =>
      call.complain ("read error: " ++ cause.words)
      pure 1
    | .ok [] => pure status
    | .ok bytes =>
      let mut status := status
      for stream in streams do
        if let .error cause ← Task.write stream.1 bytes then
          call.complain (stream.2 ++ ": " ++ cause.words)
          status := 1
      passToAll call streams steps status

def teeTool : Tool := fun call =>
  call.withSwitches ⟨"aip", "", [("append", 'a'), ("ignore-interrupts", 'i')], false⟩ 1 fun a => do
    let opening : Opening := if a.has 'a' then .append else .write
    let mut streams := [(1, "standard output")]
    let mut status := 0
    let mut stream := 3
    for name in a.operands do
      match ← Task.connect stream opening ⟨ofRaw name⟩ with
      | .ok () =>
        streams := streams ++ [(stream, name)]
        stream := stream + 1
      | .error cause =>
        call.complain (plainFault name cause)
        status := 1
    passToAll call streams mostPortions status

def repeatText (call : ToolCall) (bytes : List UInt8) : (steps : Nat) → Task Nat
  | 0 => pure 0
  | steps + 1 => do
    match ← Task.write 1 bytes with
    | .ok () =>
      Task.spend 500
      repeatText call bytes steps
    | .error cause =>
      call.complain ("standard output: " ++ cause.words)
      pure 1

def yesTool : Tool := fun call =>
  call.withSwitches ⟨"", "", [], true⟩ 1 fun a => do
    let line := if a.operands.isEmpty then "y\n" else " ".intercalate a.operands ++ "\n"
    let times := 1024 / line.length + 1
    repeatText call (bytesOf (String.join (List.replicate times line))) mostPortions

/-! ## nl, rev and paste -/

def nlTool : Tool := fun call =>
  let table : SwitchTable := ⟨"p", "bdfhilnsvw", [("body-numbering", 'b'), ("number-width", 'w'),
    ("number-separator", 's'), ("starting-line-number", 'v'), ("line-increment", 'i'),
    ("number-format", 'n')], false⟩
  call.withSwitches table 1 fun a => do
    let number (letter : Char) (fallback : Nat) : Nat :=
      ((a.value? letter).bind plainNumber?).getD fallback
    let width := number 'w' 6
    let separator := (a.value? 's').getD "\t"
    let style := (a.value? 'b').getD "t"
    let shown (n : Nat) : String :=
      let digits := toString n
      match (a.value? 'n').getD "rn" with
      | "ln" => digits ++ String.ofList (List.replicate (width - digits.length) ' ')
      | "rz" => String.ofList (List.replicate (width - digits.length) '0') ++ digits
      | _ => padFront width digits
    let take (next : Nat) (line : List Char) : List Char × Nat :=
      let line := bareLine line
      if style == "a" || (style != "n" && !line.isEmpty) then
        (ended ((shown next ++ separator).toList ++ line), next + number 'i' 1)
      else (ended (List.replicate (width + separator.length) ' ' ++ line), next)
    passLines call plainFault take (fun _ => []) (64 * mostPortions) (.ofNames a.operands)
      (number 'v' 1) []

def revTool : Tool := fun call =>
  call.withSwitches ⟨"0", "", [], false⟩ 1 fun a => do
    let fault (name : String) (cause : SystemError) : String :=
      "cannot open " ++ name ++ ": " ++ cause.words
    mapLines call fault a.operands fun line =>
      if line.getLast? == some '\n' then ended line.dropLast.reverse else line.reverse

def separatorList (cs : List Char) : List (List Char) :=
  match cs with
  | [] => []
  | '\\' :: c :: rest =>
    (match c with
      | 'n' => ['\n']
      | 't' => ['\t']
      | '0' => []
      | c => [c]) :: separatorList rest
  | c :: rest => [c] :: separatorList rest

def joinInTurn (separators : List (List Char)) (members : List (List Char)) : List Char :=
  (members.mapIdx fun i member =>
    if i == 0 then member
    else (separators.getD ((i - 1) % max 1 separators.length) []) ++ member).flatten

def pasteTool : Tool := fun call =>
  call.withSwitches ⟨"sz", "d", [("serial", 's'), ("delimiters", 'd')], false⟩ 1 fun a => do
    let (inputs, fine) ← readInputs call plainFault a.operands
    let separators := separatorList ((a.value? 'd').getD "\t").toList
    let columns := inputs.map fun input => bareLines input.2
    let rows :=
      if a.has 's' then columns.map (joinInTurn separators)
      else
        let height := columns.foldl (fun most column => max most column.length) 0
        (List.range height).map fun i =>
          joinInTurn separators (columns.map fun column => column.getD i [])
    call.finish (rows.flatMap ended) (if fine then 0 else 1)

end TranscodingEngines.Script
