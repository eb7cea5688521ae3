import TranscodingEngines.Host.Script.Tool.Basic
import TranscodingEngines.Host.Script.Tool.Regex

/-!
# Searching lines

Lines of inputs are kept if some part of them is described by one of several expressions.
-/

set_option autoImplicit false

namespace TranscodingEngines.Script

structure Search where
  regex : Regex
  foldsCase : Bool
  inverted : Bool
  most : Option Nat
  before : Nat
  after : Nat
  showsNames : Bool
  showsNumbers : Bool
  partsOnly : Bool
  silent : Bool
  onceOnly : Bool

structure SearchState where
  number : Nat
  found : Nat
  waiting : List (Nat × List Char)
  following : Nat
  shown : Option Nat
  isBinary : Bool

namespace Search

def front (search : Search) (name : String) (number : Nat) (sign : String) : List Char :=
  let named := if search.showsNames then name ++ sign else ""
  (named ++ (if search.showsNumbers then toString number ++ sign else "")).toList

def parts (search : Search) (line : List Char) : (steps : Nat) → (start : Nat) → List (List Char)
  | 0, _ => []
  | steps + 1, start =>
    match search.regex.find? search.foldsCase line start with
    | none => []
    | some found =>
      let next := if found.stop == found.start then found.stop + 1 else found.stop
      let later := if line.length < next then [] else search.parts line steps next
      if found.stop == found.start then later else (found.part line 0).getD [] :: later

def shownLine (search : Search) (name : String) (number : Nat) (line : List Char) : List Char :=
  if search.partsOnly then
    if search.inverted then []
    else (search.parts line (line.length + 2) 0).flatMap fun part =>
      search.front name number ":" ++ ended part
  else search.front name number ":" ++ ended line

def take (search : Search) (name : String) (s : SearchState) (line : List Char) :
    List Char × SearchState :=
  let number := s.number + 1
  let s := { s with number := number, isBinary := s.isBinary || line.contains '\x00' }
  let isFound := (search.regex.find? search.foldsCase line 0).isSome != search.inverted
  let context := search.before != 0 || search.after != 0
  if isFound && search.most.any (· ≤ s.found) then ([], { s with following := 0 })
  else if isFound then
    let s := { s with found := s.found + 1 }
    if search.silent || s.isBinary then ([], s)
    else
      let first := match s.waiting.getLast? with
        | some (n, _) => n
        | none => number
      let gap := match s.shown with
        | some last => context && last + 1 < first
        | none => false
      let earlier := s.waiting.reverse.flatMap fun entry =>
        if search.partsOnly then [] else search.front name entry.1 "-" ++ ended entry.2
      ((if gap then "--\n".toList else []) ++ earlier ++ search.shownLine name number line,
        { s with waiting := [], following := search.after, shown := some number })
  else if s.following != 0 then
    let shown := if search.silent || search.partsOnly then []
      else search.front name number "-" ++ ended line
    (shown, { s with following := s.following - 1, shown := some number })
  else ([], { s with waiting := ((number, line) :: s.waiting).take search.before })

def isOver (search : Search) (s : SearchState) : Bool :=
  (search.onceOnly && s.found != 0) || (search.most.any (· ≤ s.found) && s.following == 0)

def lines (search : Search) (fault : String → SystemError → Task Nat) (name : String) :
    (steps : Nat) → Source → SearchState → List (List Char) → Task (SearchState × Nat)
  | 0, source, s, _ => pure (s, source.status)
  | steps + 1, source, s, output => do
    let flush : Task Unit := do
      let _ ← Task.write 1 (rawBytes output.reverse.flatten)
    if search.isOver s then
      flush
      pure (s, source.status)
    else
      let isFull := source.lines.isEmpty
      if isFull then flush
      let output := if isFull then [] else output
      match ← source.next fault mostPortions with
      | (none, source) => pure (s, source.status)
      | (some line, source) =>
        let (shown, s) := search.take name s (bareLine line)
        lines search fault name steps source s (shown :: output)

end Search

def grepTable : SwitchTable where
  plain := "abcEFGhHiIlLnoPqrRsTuUvVwxyzZ"
  valued := "ABCefmdD"
  words := [("count", 'c'), ("extended-regexp", 'E'), ("fixed-strings", 'F'), ("basic-regexp", 'G'),
    ("no-filename", 'h'), ("with-filename", 'H'), ("ignore-case", 'i'), ("line-number", 'n'),
    ("only-matching", 'o'), ("quiet", 'q'), ("silent", 'q'), ("no-messages", 's'),
    ("invert-match", 'v'), ("word-regexp", 'w'), ("line-regexp", 'x'), ("regexp", 'e'),
    ("file", 'f'), ("max-count", 'm'), ("after-context", 'A'), ("before-context", 'B'),
    ("context", 'C'), ("files-with-matches", 'l'), ("files-without-match", 'L'), ("text", 'a')]
  inFront := false

def grepUsage (call : ToolCall) : String :=
  "Usage: " ++ call.name ++ " [OPTION]... PATTERNS [FILE]...\nTry '" ++ call.name
    ++ " --help' for more information.\n"

def patternsRegex (a : Arguments) (patterns : List (List Char)) : Except RegexFault Regex := do
  let read (pattern : List Char) : Except RegexFault Regex :=
    if a.lastOf "EFGP" == some 'F' then .ok (.literal pattern)
    else Regex.read ((a.lastOf "EFGP").any fun c => c == 'E' || c == 'P') pattern
  let bounded (r : Regex) : Regex :=
    if a.has 'x' then .seq (.place .start) (.seq r (.place .finish))
    else if a.has 'w' then .seq (.place .noWordBefore) (.seq r (.place .noWordBehind))
    else r
  match ← patterns.mapM read with
  | [] => pure (.set false [])
  | first :: rest => pure (rest.foldl (fun all r => .either all (bounded r)) (bounded first))

/-- Searches inputs one after the other: whether a line was found, and the worst status of an input
that cannot be read. -/
def searchInputs (call : ToolCall) (a : Arguments) (search : Search) :
    List String → (found : Bool) → (status : Nat) → Task Nat
  | [], found, status => pure (if status != 0 then status else if found then 0 else 1)
  | name :: rest, found, status => do
    let fault (name : String) (cause : SystemError) : Task Nat := do
      if !a.has 's' then call.complain (plainFault name cause)
      pure 2
    let title := if name == "-" then "(standard input)" else name
    let (s, failed) ← search.lines fault title mostPortions (.ofNames [name])
      ⟨0, 0, [], 0, none, false⟩ []
    let isRead := failed == 0
    let say (text : String) : Task Unit := do
      let _ ← Task.write 1 (bytesOf (text ++ "\n"))
    if a.has 'q' then
      if s.found != 0 then return 0
    else if a.has 'l' then
      if s.found != 0 then say title
    else if a.has 'L' then
      if s.found == 0 && isRead then say title
    else if a.has 'c' then
      if isRead then say ((if search.showsNames then title ++ ":" else "") ++ toString s.found)
    else if s.isBinary && s.found != 0 then say (call.name ++ ": " ++ title ++ ": binary file matches")
    searchInputs call a search rest (found || (if a.has 'L' then s.found == 0 else s.found != 0))
      (max status failed)

def grepTool : Tool := fun call =>
  let isColour (arg : String) : Bool := arg.startsWith "--color" || arg.startsWith "--colour"
  let call := { call with args := call.args.filter fun arg => !isColour arg }
  match grepTable.read call.args with
  | .error text => do
    let _ ← Task.write 2 (bytesOf (call.name ++ ": " ++ text ++ "\n" ++ grepUsage call))
    pure 2
  | .ok a => do
    let given := a.switches.filterMap fun s => if s.1 == 'e' then some s.2.toList else none
    let mut patterns := given.flatMap (splitWhere (· == '\n'))
    let mut operands := a.operands
    if let some name := a.value? 'f' then
      match ← readPath name with
      | .ok bytes => patterns := patterns ++ bareLines (rawChars bytes)
      | .error cause =>
        call.complain (plainFault name cause)
        return 2
    else if given.isEmpty then
      match operands with
      | [] =>
        let _ ← Task.write 2 (bytesOf (grepUsage call))
        return 2
      | first :: rest =>
        patterns := splitWhere (· == '\n') first.toList
        operands := rest
    match patternsRegex a patterns with
    | .error fault =>
      call.complain fault.message
      pure 2
    | .ok regex =>
      let count (letter other : Char) : Option Nat :=
        ((a.value? letter).or (a.value? other)).bind plainNumber?
      let most := (a.value? 'm').map plainNumber?
      if most == some none then
        call.complain "invalid max count"
        pure 2
      else
        let silent := "cqlL".toList.any a.has
        let context := !silent && !a.has 'o'
        let search : Search := {
          regex := regex, foldsCase := a.has 'i' || a.has 'y', inverted := a.has 'v'
          most := most.join
          before := if context then (count 'B' 'C').getD 0 else 0
          after := if context then (count 'A' 'C').getD 0 else 0
          showsNames := match a.lastOf "hH" with
            | some letter => letter == 'H'
            | none => 1 < operands.length
          showsNumbers := a.has 'n', partsOnly := a.has 'o', silent := silent
          onceOnly := a.has 'q' || a.has 'l' || a.has 'L' }
        searchInputs call a search (if operands.isEmpty then ["-"] else operands) false 0

end TranscodingEngines.Script
