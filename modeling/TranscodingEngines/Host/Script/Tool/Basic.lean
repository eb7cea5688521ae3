import TranscodingEngines.Host.Script.Children

/-!
# Small programs

The programs of the machine that scripts make use of. Each is a task that ends with an exit status.
Their switches are read in one way: letters behind a dash, words behind two dashes, some with a
value, anywhere among the arguments up to two dashes alone.
-/

set_option autoImplicit false

namespace TranscodingEngines.Script

/-- A call of a program: the name it goes by, its arguments and its environment. Texts are raw. -/
structure ToolCall where
  name : String
  args : List String
  environment : List (String × String)

/-- A program: what it does when it is called, up to its exit status. -/
abbrev Tool := ToolCall → Task Nat

/-! ## Switches -/

structure SwitchTable where
  plain : String
  valued : String
  words : List (String × Char)
  inFront : Bool

structure Arguments where
  switches : List (Char × String)
  operands : List String

namespace Arguments

def has (a : Arguments) (letter : Char) : Bool := a.switches.any (·.1 == letter)

def value? (a : Arguments) (letter : Char) : Option String :=
  (a.switches.reverse.find? (·.1 == letter)).map (·.2)

def lastOf (a : Arguments) (letters : String) : Option Char :=
  (a.switches.reverse.find? fun s => letters.toList.contains s.1).map (·.1)

end Arguments

def SwitchTable.word? (table : SwitchTable) (text : String) : Except String (String × Char) :=
  match table.words.find? (·.1 == text) with
  | some entry => .ok entry
  | none =>
    match table.words.filter fun entry => entry.1.startsWith text with
    | [] => .error ("unrecognized option '--" ++ text ++ "'")
    | entry :: others =>
      if others.all (·.2 == entry.2) then .ok entry
      else
        let all := (entry :: others).map fun e => " '--" ++ e.1 ++ "'"
        .error ("option '--" ++ text ++ "' is ambiguous; possibilities:" ++ String.join all)

def SwitchTable.letters (table : SwitchTable) : List Char →
    Except String (List (Char × String) × Option Char)
  | [] => .ok ([], none)
  | c :: rest =>
    if table.valued.toList.contains c then
      if rest.isEmpty then .ok ([], some c) else .ok ([(c, String.ofList rest)], none)
    else if table.plain.toList.contains c then do
      let (found, wanting) ← table.letters rest
      pure ((c, "") :: found, wanting)
    else .error ("invalid option -- '" ++ String.singleton c ++ "'")

def SwitchTable.read (table : SwitchTable) : List String → Except String Arguments
  | [] => .ok ⟨[], []⟩
  | arg :: rest => do
    let behind (found : List (Char × String)) (_ : Unit) : Except String Arguments := do
      let more ← table.read rest
      pure ⟨found ++ more.switches, more.operands⟩
    let operand (_ : Unit) : Except String Arguments := do
      if table.inFront then pure ⟨[], arg :: rest⟩
      else
        let more ← table.read rest
        pure ⟨more.switches, arg :: more.operands⟩
    match arg.toList with
    | ['-'] => operand ()
    | ['-', '-'] => pure ⟨[], rest⟩
    | '-' :: '-' :: text =>
      let word := text.takeWhile (· != '=')
      let (name, letter) ← table.word? (String.ofList word)
      match text.drop word.length, table.valued.toList.contains letter with
      | _ :: value, true => behind [(letter, String.ofList value)] ()
      | _ :: _, false => throw ("option '--" ++ name ++ "' doesn't allow an argument")
      | [], false => behind [(letter, "")] ()
      | [], true =>
        match rest with
        | [] => throw ("option '--" ++ name ++ "' requires an argument")
        | value :: rest =>
          let more ← table.read rest
          pure ⟨(letter, value) :: more.switches, more.operands⟩
    | '-' :: letters =>
      let (found, wanting) ← table.letters letters
      match wanting with
      | none => behind found ()
      | some c =>
        match rest with
        | [] => throw ("option requires an argument -- '" ++ String.singleton c ++ "'")
        | value :: rest =>
          let more ← table.read rest
          pure ⟨found ++ (c, value) :: more.switches, more.operands⟩
    | _ => operand ()

/-! ## Input and output -/

namespace ToolCall

def complain (call : ToolCall) (text : String) : Task Unit := do
  let _ ← Task.write 2 (bytesOf (call.name ++ ": " ++ text ++ "\n"))

def misuse (call : ToolCall) (text : String) (status : Nat) : Task Nat := do
  let hint := "Try '" ++ call.name ++ " --help' for more information.\n"
  let front := if text.isEmpty then "" else call.name ++ ": " ++ text ++ "\n"
  let _ ← Task.write 2 (bytesOf (front ++ hint))
  pure status

def finish (call : ToolCall) (chars : List Char) (status : Nat) : Task Nat := do
  match ← Task.write 1 (rawBytes chars) with
  | .ok () => pure status
  | .error cause =>
    call.complain ("write error: " ++ cause.words)
    pure 1

def withSwitches (call : ToolCall) (table : SwitchTable) (status : Nat)
    (body : Arguments → Task Nat) : Task Nat :=
  match table.read call.args with
  | .ok arguments => body arguments
  | .error text => call.misuse text status

end ToolCall

def readStream (stream : Nat) : (steps : Nat) → List (List UInt8) →
    Task (Except SystemError (List UInt8))
  | 0, found => pure (.ok found.reverse.flatten)
  | steps + 1, found => do
    match ← Task.read stream 65536 none with
    | .ok [] => pure (.ok found.reverse.flatten)
    | .ok bytes => readStream stream steps (bytes :: found)
    | .error cause => pure (.error cause)

/-- Reads what stands at a path; a dash stands for standard input. -/
def readPath (path : String) : Task (Except SystemError (List UInt8)) := do
  if path == "-" then readStream 0 mostPortions []
  else
    match ← Task.connect 3 .read ⟨ofRaw path⟩ with
    | .error cause => pure (.error cause)
    | .ok () =>
      let result ← readStream 3 mostPortions []
      Task.close 3
      pure result

def linesOf (chars : List Char) : List (List Char) :=
  let (lines, last) := chars.foldr (fun c found =>
    if c == '\n' then
      if found.2.isEmpty then (found.1, ['\n']) else (found.2 :: found.1, ['\n'])
    else (found.1, c :: found.2)) ([], [])
  if last.isEmpty then lines else last :: lines

def bareLine (line : List Char) : List Char :=
  if line.getLast? == some '\n' then line.dropLast else line

def bareLines (chars : List Char) : List (List Char) :=
  (linesOf chars).map bareLine

def ended (line : List Char) : List Char := line ++ ['\n']

def padFront (width : Nat) (text : String) : String :=
  String.ofList (List.replicate (width - text.length) ' ') ++ text

/-- Reads inputs one after the other; those that cannot be read are complained about in the words
given. Without names, standard input is read. -/
def readInputs (call : ToolCall) (fault : String → SystemError → String) (names : List String) :
    Task (List (String × List Char) × Bool) := do
  let rec go : List String → Task (List (String × List Char) × Bool)
    | [] => pure ([], true)
    | name :: rest => do
      match ← readPath name with
      | .ok bytes =>
        let (others, fine) ← go rest
        pure ((name, rawChars bytes) :: others, fine)
      | .error cause =>
        call.complain (fault name cause)
        let (others, _) ← go rest
        pure (others, false)
  go (if names.isEmpty then ["-"] else names)

/-! ## Input line by line -/

structure Source where
  names : List String
  current : Option (Nat × String)
  lines : List (List Char)
  begun : List Char
  status : Nat

namespace Source

def ofNames (names : List String) : Source :=
  ⟨if names.isEmpty then ["-"] else names, none, [], [], 0⟩

/-- The next line, if there is one. What happens with an input that cannot be read is up to the
program, and comes to a status. -/
def next (fault : String → SystemError → Task Nat) : (steps : Nat) → Source →
    Task (Option (List Char) × Source)
  | 0, s => pure (none, s)
  | steps + 1, s => do
    match s.lines, s.current, s.names with
    | line :: rest, _, _ => pure (some line, { s with lines := rest })
    | [], none, [] => pure (none, s)
    | [], none, name :: names =>
      let s := { s with names := names }
      if name == "-" then next fault steps { s with current := some (0, name) }
      else
        match ← Task.connect 3 .read ⟨ofRaw name⟩ with
        | .ok () => next fault steps { s with current := some (3, name) }
        | .error cause => next fault steps { s with status := max s.status (← fault name cause) }
    | [], some (stream, name), _ =>
      let close (s : Source) : Task (Option (List Char) × Source) := do
        if stream != 0 then Task.close stream
        let s := { s with current := none }
        if s.begun.isEmpty then next fault steps s
        else pure (some s.begun, { s with begun := [] })
      match ← Task.read stream 32768 none with
      | .error cause => close { s with status := max s.status (← fault name cause) }
      | .ok [] => close s
      | .ok bytes =>
        let lines := linesOf (s.begun ++ rawChars bytes)
        let last := lines.getLast?.getD []
        if last.getLast? == some '\n' then next fault steps { s with lines := lines, begun := [] }
        else next fault steps { s with lines := lines.dropLast, begun := last }

end Source

/-- A name as programs show it: between quotation marks only if a shell would not read it as it
is. -/
def shownName (name : String) : String :=
  let chars := name.toList
  let isOdd (c : Char) : Bool := isSpace c || "\"!$&()*;<>[\\^\x60|?'".toList.contains c
  if !name.isEmpty && !(chars.any isOdd) && !("#~".toList.contains (chars.headD 'a')) then name
  else if !chars.contains '\'' then "'" ++ name ++ "'"
  else if chars.any "\"!$\\\x60".toList.contains then
    "'" ++ "'\\''".intercalate (name.splitOn "'") ++ "'"
  else "\"" ++ name ++ "\""

/-- The usual words about an input that cannot be read. -/
def plainFault (name : String) (cause : SystemError) : String :=
  shownName name ++ ": " ++ cause.words

/-- Sends the lines of inputs through a program, which says what is written for each and what is
written at the end. -/
def passLines {σ : Type} (call : ToolCall) (fault : String → SystemError → String)
    (take : σ → List Char → List Char × σ) (atEnd : σ → List Char) : (steps : Nat) → Source → σ →
    List (List Char) → Task Nat
  | 0, _, _, _ => pure 0
  | steps + 1, source, s, output => do
    let complain (name : String) (cause : SystemError) : Task Nat := do
      call.complain (fault name cause)
      pure 1
    if source.lines.isEmpty && !output.isEmpty then
      match ← Task.write 1 (rawBytes output.reverse.flatten) with
      | .ok () => passLines call fault take atEnd steps source s []
      | .error cause =>
        call.complain ("write error: " ++ cause.words)
        pure 1
    else
      match ← source.next complain mostPortions with
      | (some line, source) =>
        let (shown, s) := take s line
        passLines call fault take atEnd steps source s (shown :: output)
      | (none, source) => call.finish (atEnd s) source.status

def mapLines (call : ToolCall) (fault : String → SystemError → String) (names : List String)
    (shown : List Char → List Char) : Task Nat :=
  passLines call fault (fun _ line => (shown line, ())) (fun _ => []) (64 * mostPortions)
    (.ofNames names) () []

end TranscodingEngines.Script
