import TranscodingEngines.Host.Script.Tool.EditScript

/-!
# Editing lines

The lines of inputs are taken one after the other, and each goes through all instructions of a
script before it is written. What an instruction puts aside is written behind the line.
-/

set_option autoImplicit false

namespace TranscodingEngines.Script

inductive Aside where
  | text (chars : List Char)
  | file (name : String)

structure Editor where
  source : Source
  ahead : Option (List Char)
  atEnd : Bool
  number : Nat
  space : List Char
  hasFeed : Bool
  held : List Char
  asides : List Aside
  ranges : List (Nat × Option Nat)
  wasReplaced : Bool
  lastRegex : Option Regex
  owesFeed : Bool
  output : List (List Char)

structure EditJob where
  instructions : Array Instruction
  quiet : Bool
  keeps : Bool
  files : List (String × Nat)

inductive EditStep where
  | next
  | jump (place : Nat)
  | finish (prints : Bool)
  | again
  | quit (status : Nat) (prints : Bool)

namespace Editor

def write (e : Editor) (chars : List Char) : Editor :=
  if chars.isEmpty then e
  else
    let front := if e.owesFeed then ['\n'] else []
    { e with output := (front ++ chars) :: e.output, owesFeed := false }

/-- Writes a line, with a line feed unless the input has none there. -/
def writeLine (e : Editor) (line : List Char) : Editor :=
  if e.hasFeed then e.write (ended line)
  else
    let front := if e.owesFeed then ['\n'] else []
    { e with output := (front ++ line) :: e.output, owesFeed := true }

def lookAhead (fault : String → SystemError → Task Nat) (e : Editor) : Task Editor := do
  if e.ahead.isSome || e.atEnd then pure e
  else
    let (line, source) ← e.source.next fault mostPortions
    pure { e with source := source, ahead := line, atEnd := line.isNone }

def regexOf (e : Editor) (r : EditRegex) : Option Regex := r.regex.or e.lastRegex

def hasStretch (e : Editor) (r : EditRegex) : Bool × Editor :=
  match e.regexOf r with
  | some regex =>
    ((regex.find? r.foldsCase e.space 0).isSome, { e with lastRegex := some regex })
  | none => (false, e)

def isMeant (e : Editor) : Address → Bool × Editor
  | .line n => (e.number == n, e)
  | .last => (e.ahead.isNone, e)
  | .found r => e.hasStretch r
  | .every first step =>
    (if step == 0 then e.number == first
      else first ≤ e.number && (e.number - first) % step == 0, e)
  | .further _ => (false, e)
  | .multiple _ => (false, e)

def startsRange (e : Editor) (place : Nat) (first second : Address) : Bool × Editor :=
  let (isFirst, e) := e.isMeant first
  let begin_ (stop : Option Nat) : Editor := { e with ranges := (place, stop) :: e.ranges }
  if !isFirst then (false, e)
  else
    match second with
    | .line n => (true, if n ≤ e.number then e else begin_ (some n))
    | .further n => (true, if n == 0 then e else begin_ (some (e.number + n)))
    | .multiple n =>
      (true, if n == 0 || e.number % n == 0 then e else begin_ (some (e.number + n - e.number % n)))
    | .last => (true, if e.ahead.isNone then e else begin_ none)
    | _ => (true, begin_ none)

def isReached (e : Editor) (place : Nat) (reach : Reach) : Bool × Editor :=
  let passed (e : Editor) : Editor := { e with ranges := e.ranges.filter (·.1 != place) }
  let (found, e) := match reach.first, reach.last with
    | none, _ => (true, e)
    | some first, none => e.isMeant first
    | some first, some second =>
      match e.ranges.lookup place with
      | none => e.startsRange place first second
      | some (some stop) =>
        if stop < e.number then (passed e).startsRange place first second
        else (true, if e.number == stop then passed e else e)
      | some none =>
        let (isLast, e) := e.isMeant second
        (true, if isLast then passed e else e)
  (found != reach.negated, e)

def changeCase (once lasting : CaseChange) (c : Char) : Char :=
  match once, lasting with
  | .nextUpper, _ => c.toUpper
  | .nextLower, _ => c.toLower
  | _, .upper => c.toUpper
  | _, .lower => c.toLower
  | _, _ => c

def replacementText (text : List Char) (found : Stretch) (parts : List Substitute) : List Char :=
  let (chars, _, _) := parts.foldl (fun state part =>
    let (chars, once, lasting) := state
    let add (more : List Char) : List Char × CaseChange × CaseChange :=
      more.foldl (fun state c =>
        (changeCase state.2.1 state.2.2 c :: state.1, CaseChange.asIs, state.2.2))
        (chars, once, lasting)
    match part with
    | .char c => add [c]
    | .group n => add ((found.part text n).getD [])
    | .change .nextUpper => (chars, .nextUpper, lasting)
    | .change .nextLower => (chars, .nextLower, lasting)
    | .change lasting => (chars, once, lasting)) ([], CaseChange.asIs, CaseChange.asIs)
  chars.reverse

def replaced (r : Replacement) (regex : Regex) (text : List Char) : (steps : Nat) →
    (start count : Nat) → (mayBeEmpty : Bool) → List Char × Bool
  | 0, start, _, _ => (text.drop start, false)
  | steps + 1, start, count, mayBeEmpty =>
    match regex.find? r.regex.foldsCase text start with
    | none => (text.drop start, false)
    | some found =>
      let before := (text.drop start).take (found.start - start)
      let isEmpty := found.stop == found.start
      if isEmpty && found.start == start && !mayBeEmpty then
        match text[start]? with
        | none => ([], false)
        | some c =>
          let (rest, any) := replaced r regex text steps (start + 1) count true
          (c :: rest, any)
      else
        let count := count + 1
        let counts := r.number ≤ count
        let new := if counts then replacementText text found r.parts
          else (found.part text 0).getD []
        if counts && !r.isGlobal then (before ++ new ++ text.drop found.stop, true)
        else if isEmpty then
          match text[found.stop]? with
          | none => (before ++ new, counts)
          | some c =>
            let (rest, any) := replaced r regex text steps (found.stop + 1) count true
            (before ++ new ++ c :: rest, any || counts)
        else
          let (rest, any) := replaced r regex text steps found.stop count false
          (before ++ new ++ rest, any || counts)

def listed (line : List Char) : List Char :=
  let shown := line.flatMap fun c =>
    match c with
    | '\\' => "\\\\".toList
    | '\x07' => "\\a".toList
    | '\x08' => "\\b".toList
    | '\x0c' => "\\f".toList
    | '\n' => "\\n".toList
    | '\r' => "\\r".toList
    | '\t' => "\\t".toList
    | '\x0b' => "\\v".toList
    | c =>
      if ' ' ≤ c && c ≤ '~' then [c]
      else
        let digits := String.ofList (Nat.toDigits 8 c.toNat)
        ('\\' :: List.replicate (3 - digits.length) '0') ++ digits.toList
  shown ++ ['$', '\n']

end Editor

def flushEditor (job : EditJob) (e : Editor) : Task Editor := do
  if job.keeps then pure e
  else
    let _ ← Task.write 1 (rawBytes e.output.reverse.flatten)
    pure { e with output := [] }

def writeAsides : List Aside → Editor → Task Editor
  | [], e => pure { e with asides := [] }
  | .text chars :: rest, e => writeAsides rest (e.write chars)
  | .file name :: rest, e => do
    match ← readPath name with
    | .ok bytes => writeAsides rest (e.write (rawChars bytes))
    | .error _ => writeAsides rest e

def writeToFile (job : EditJob) (name : String) (e : Editor) : Task Editor := do
  if name == "/dev/stdout" then return e.writeLine e.space
  match job.files.lookup name with
  | some stream =>
    let _ ← Task.write stream (rawBytes (ended e.space))
    pure e
  | none => pure e

def takeLine (fault : String → SystemError → Task Nat) (e : Editor) : Task (Option Editor) := do
  let e ← e.lookAhead fault
  match e.ahead with
  | none => pure none
  | some line =>
    let next ← { e with ahead := none }.lookAhead fault
    pure (some { next with
      number := e.number + 1
      space := bareLine line
      hasFeed := line.getLast? == some '\n' })

def behindGroup (job : EditJob) (place : Nat) : Nat :=
  let rec go : (steps : Nat) → (place depth : Nat) → Nat
    | 0, place, _ => place
    | steps + 1, place, depth =>
      match job.instructions[place]? with
      | none => place
      | some ⟨_, .opening⟩ => go steps (place + 1) (depth + 1)
      | some ⟨_, .closing⟩ => if depth ≤ 1 then place + 1 else go steps (place + 1) (depth - 1)
      | some _ => go steps (place + 1) depth
  go (job.instructions.size + 1) place 0

def placeOfLabel (job : EditJob) (name : String) : Nat :=
  (job.instructions.findIdx? fun instruction =>
    match instruction.action with
    | .label other => other == name && !name.isEmpty
    | _ => false).getD job.instructions.size

def carryOutEdit (job : EditJob) (fault : String → SystemError → Task Nat) (reach : Reach)
    (isInRange : Bool) (action : EditAction) (e : Editor) : Task (EditStep × Editor) := do
  let on (e : Editor) : Task (EditStep × Editor) := pure (.next, e)
  /- The end of the line, before another one is taken. -/
  let conclude (prints : Bool) (e : Editor) : Task Editor :=
    writeAsides e.asides (if prints && !job.quiet then e.writeLine e.space else e)
  match action with
  | .opening | .closing | .nothing | .label _ => on e
  | .delete => pure (.finish false, e)
  | .deleteFirst =>
    if e.space.contains '\n' then
      pure (.again, { e with space := (e.space.dropWhile (· != '\n')).drop 1 })
    else pure (.finish false, e)
  | .print => on (e.writeLine e.space)
  | .printFirst => on (e.write (ended (e.space.takeWhile (· != '\n'))))
  | .next =>
    if e.ahead.isNone then pure (.quit 0 true, e)
    else
      match ← takeLine fault (← conclude true e) with
      | some e => on e
      | none => pure (.quit 0 false, e)
  | .nextToo =>
    if e.ahead.isNone then pure (.quit 0 true, e)
    else
      match ← takeLine fault (← conclude false e) with
      | some next => on { next with space := e.space ++ '\n' :: next.space }
      | none => pure (.quit 0 true, e)
  | .quit status prints => pure (.quit status prints, e)
  | .hold => on { e with held := e.space }
  | .holdToo => on { e with held := e.held ++ '\n' :: e.space }
  | .fetch => on { e with space := e.held }
  | .fetchToo => on { e with space := e.space ++ '\n' :: e.held }
  | .exchange => on { e with space := e.held, held := e.space }
  | .number => on (e.write (ended (toString e.number).toList))
  | .name => on (e.write (ended ((e.source.current.map (·.2)).getD "-").toList))
  | .list => on (e.write (Editor.listed e.space))
  | .zap => on { e with space := [] }
  | .append text => on { e with asides := e.asides ++ [.text text] }
  | .insert text => on (e.write text)
  | .change text =>
    let shows := reach.negated || reach.last.isNone || !isInRange
    pure (.finish false, if shows then e.write text else e)
  | .translate table => on { e with space := e.space.map fun c => (table.lookup c).getD c }
  | .replace r =>
    match e.regexOf r.regex with
    | none => on e
    | some regex =>
      let (space, any) := Editor.replaced r regex e.space (2 * e.space.length + 2) 0 0 true
      let e := { e with lastRegex := some regex }
      if !any then on e
      else
        let e := { e with space := space, wasReplaced := true }
        let e := if r.prints then e.writeLine e.space else e
        match r.file with
        | some name => on (← writeToFile job name e)
        | none => on e
  | .branch label => pure (.jump (placeOfLabel job label), e)
  | .branchIf wasReplaced label =>
    let jumps := e.wasReplaced == wasReplaced
    pure (if jumps then .jump (placeOfLabel job label) else .next,
      { e with wasReplaced := false })
  | .readFile name => on { e with asides := e.asides ++ [.file name] }
  | .writeFile name => on (← writeToFile job name e)

def runEditor (job : EditJob) (fault : String → SystemError → Task Nat) : (steps : Nat) →
    (place : Nat) → Editor → Task (Nat × Editor)
  | 0, _, e => pure (0, e)
  | steps + 1, place, e => do
    let finish (prints : Bool) : Task Editor :=
      writeAsides e.asides (if prints && !job.quiet then e.writeLine e.space else e)
    let nextLine (e : Editor) : Task (Nat × Editor) := do
      let e ← if e.source.lines.isEmpty then flushEditor job e else pure e
      match ← takeLine fault { e with wasReplaced := false } with
      | some e => runEditor job fault steps 0 e
      | none => pure (0, e)
    match job.instructions[place]? with
    | none => nextLine (← finish true)
    | some instruction =>
      let (reached, e) := e.isReached place instruction.reach
      match reached, instruction.action with
      | false, .opening => runEditor job fault steps (behindGroup job place) e
      | false, _ => runEditor job fault steps (place + 1) e
      | true, action =>
        let isInRange := (e.ranges.lookup place).isSome
        match ← carryOutEdit job fault instruction.reach isInRange action e with
        | (.next, e) => runEditor job fault steps (place + 1) e
        | (.jump place, e) => runEditor job fault steps place e
        | (.finish prints, e) =>
          nextLine (← writeAsides e.asides
            (if prints && !job.quiet then e.writeLine e.space else e))
        | (.again, e) => do
          let e ← writeAsides e.asides e
          runEditor job fault steps 0 e
        | (.quit status prints, e) => do
          let e ← writeAsides e.asides (if prints && !job.quiet then e.writeLine e.space else e)
          pure (status, e)

def editInputs (job : EditJob) (fault : String → SystemError → Task Nat) (names : List String) :
    Task (Nat × Editor) := do
  let zeroRanges := (List.range job.instructions.size).filterMap fun place =>
    match (job.instructions[place]?).map (·.reach) with
    | some ⟨some (.line 0), some (.found _), _⟩ => some (place, none)
    | _ => none
  let e : Editor := ⟨.ofNames names, none, false, 0, [], true, [], [], zeroRanges, false, none,
    false, []⟩
  match ← takeLine fault e with
  | none => pure (0, ← e.lookAhead fault)
  | some e => runEditor job fault (64 * mostPortions) 0 e

def missingLabel? (instructions : Array Instruction) : Option String :=
  let labels := instructions.toList.filterMap fun i => match i.action with
    | .label name => some name
    | _ => none
  instructions.toList.findSome? fun i => match i.action with
    | .branch name | .branchIf _ name =>
      if name.isEmpty || labels.contains name then none else some name
    | _ => none

def openEditFiles (call : ToolCall) : List String → List (String × Nat) →
    Task (Option (List (String × Nat)))
  | [], opened => pure (some opened)
  | name :: rest, opened => do
    if name == "/dev/stdout" || (opened.lookup name).isSome then openEditFiles call rest opened
    else
      let stream := 4 + opened.length
      match ← Task.connect stream .write ⟨ofRaw name⟩ with
      | .ok () => openEditFiles call rest ((name, stream) :: opened)
      | .error cause =>
        call.complain ("couldn't open file " ++ name ++ ": " ++ cause.words)
        pure none

def sedTable : SwitchTable where
  plain := "nrEsuz"
  valued := "efl"
  words := [("quiet", 'n'), ("silent", 'n'), ("expression", 'e'), ("file", 'f'),
    ("regexp-extended", 'E'), ("separate", 's'), ("unbuffered", 'u'), ("null-data", 'z')]
  inFront := false

def sedUsage (call : ToolCall) : Task Nat := do
  let _ ← Task.write 2 (bytesOf ("Usage: " ++ call.name
    ++ " [OPTION]... \x7bscript-only-if-no-other-script\x7d [input-file]...\n"))
  pure 1

def sedTool : Tool := fun call => do
  let isInPlace (arg : String) : Bool := arg.startsWith "-i" || arg.startsWith "--in-place"
  let inPlace := call.args.any isInPlace
  match sedTable.read (call.args.filter fun arg => !isInPlace arg) with
  | .error text =>
    call.complain text
    sedUsage call
  | .ok a =>
    let given := a.switches.filterMap fun s => if s.1 == 'e' then some s.2.toList else none
    let mut script := ['\n'].intercalate given
    let mut names := a.operands
    if let some name := a.value? 'f' then
      match ← readPath name with
      | .ok bytes => script := script ++ rawChars bytes
      | .error cause =>
        call.complain ("couldn't open file " ++ name ++ ": " ++ cause.words)
        return 1
    else if given.isEmpty then
      match names with
      | [] => return (← sedUsage call)
      | first :: rest =>
        script := first.toList
        names := rest
    let quiet := a.has 'n' || script.take 3 == "#n\n".toList
    match readEditScript (a.has 'E' || a.has 'r') script with
    | .error fault =>
      let place := match fault.rest with
        | some rest => script.length - rest.length
        | none => 0
      call.complain ("-e expression #1, char " ++ toString place ++ ": " ++ fault.text)
      pure 1
    | .ok instructions =>
      let instructions := instructions.toArray
      if let some name := missingLabel? instructions then
        call.complain ("can't find label for jump to " ++ ofCommand name)
        return 1
      let files := instructions.toList.filterMap fun i => match i.action with
        | .writeFile name => some name
        | .replace r => r.file
        | _ => none
      match ← openEditFiles call files [] with
      | none => pure 4
      | some files =>
        let job : EditJob := ⟨instructions, quiet, inPlace, files⟩
        let fault (name : String) (cause : SystemError) : Task Nat := do
          if cause == .isDirectory then
            call.complain (if inPlace then "couldn't edit " ++ name ++ ": not a regular file"
              else "read error on " ++ name ++ ": " ++ cause.words)
            pure 4
          else
            call.complain ("can't read " ++ name ++ ": " ++ cause.words)
            pure 2
        if inPlace then
          let mut worst := 0
          for name in names do
            let (status, e) ← editInputs job fault [name]
            if e.source.status == 0 then
              let _ ← Task.change (.write ⟨ofRaw name⟩ (rawBytes e.output.reverse.flatten))
            worst := max worst (max status e.source.status)
          pure worst
        else
          let (status, e) ← editInputs job fault names
          let e ← flushEditor job e
          pure (if status != 0 then status else e.source.status)

end TranscodingEngines.Script
