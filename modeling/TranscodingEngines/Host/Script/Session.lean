import TranscodingEngines.Host.Script.Evaluation

/-!
# Sessions

A shell starts with options, a name and arguments from its command line, and with variables from its
environment. It runs the commands of a text, a file or its input, and ends with the exit status of
the last one.
-/

set_option autoImplicit false

namespace TranscodingEngines.Script

def freshShell (name : String) (environment : List (String × String)) (view : View) : Shell :=
  let directory := toRaw view.host.workingDirectory.text
  let given := environment.filter fun entry => isName entry.1.toList && entry.1 != "PWD"
  let own (name value : String) : String × Binding := (name, ⟨some value, false, false⟩)
  let imported := given.map fun entry => (entry.1, (⟨some entry.2, true, false⟩ : Binding))
  let start : Shell := {
    name := name, args := [], variables_ := [], functions := [], found := [],
    directory := directory, aliases := [], options := [], traps := [], arrived := [], status := 0,
    trapStatus := none, outputStatus := 0, line := 0, speaker := none, loopDepth := 0,
    functionDepth := 0, saved := [], documents := [], nextDocument := 0,
    shellId := view.processId, jobs := [], lastProcess := none, optionArgument := 1,
    optionLetter := 0, isCopy := false, isTracing := false, flow := .running }
  let defaults : List (String × Binding) :=
    [own "OPTIND" "1", own "PPID" (toString view.parentId), own "PS1" "# ", own "PS2" "> ",
      own "PS4" "+ ",
      own "PATH" "/usr/local/sbin:/usr/local/bin:/usr/sbin:/usr/bin:/sbin:/bin"]
  let all := defaults ++ imported
    ++ [own "IFS" " \t\n", ("PWD", ⟨some directory, true, false⟩)]
  all.foldl (fun s entry => s.bind entry.1 entry.2) start

structure CommandLine where
  args : List String
  isText : Bool

def readCommandLine : (steps : Nat) → List String → (isText : Bool) →
    StateT Shell (Except String) CommandLine
  | 0, args, isText => pure ⟨args, isText⟩
  | steps + 1, args, isText => do
    match args with
    | [] => pure ⟨[], isText⟩
    | first :: rest =>
      match first.toList with
      | ['-'] => pure ⟨rest, isText⟩
      | ['-', '-'] => pure ⟨rest, isText⟩
      | '-' :: letters =>
        let others := letters.filter fun c => c != 'c' && c != 'l'
        readCommandLine steps (← setLetters true others rest) (isText || letters.contains 'c')
      | '+' :: letters => readCommandLine steps (← setLetters false letters rest) isText
      | _ => pure ⟨args, isText⟩

/-- Ends the shell with a complaint about its command line. -/
def refuseStart (text : String) : Code Unit := do
  complain text
  leave 2

def runWhole (go : Go) (manner : Manner) (isFile : Bool) (text : List Char) : Code Unit := do
  if !(← runText go manner isFile text) then leave 2

def runSession (go : Go) (line : CommandLine) : Code Unit := do
  let rename (args : List String) : Code Unit := modify fun s => { s with args := args }
  let fromInput (args : List String) : Code Unit := do
    rename args
    modify fun s => setOption s 's' true
    let bytes ← readAll 0 mostPortions []
    runWhole go .plain true ((rawChars bytes).filter (· != '\x00'))
  let s ← get
  match line.isText, line.args with
  | true, [] => refuseStart "-c requires an argument"
  | true, text :: rest =>
    match rest with
    | [] => pure ()
    | name :: args => modify fun s => { s with name := name, args := args }
    runWhole go ⟨false, !s.hasOption 's'⟩ false text.toList
  | false, [] => fromInput []
  | false, name :: args =>
    if s.hasOption 's' then fromInput (name :: args)
    else
      let view ← Task.look
      match textAt view.host name with
      | .error cause => refuseStart (openFault .read name cause)
      | .ok bytes =>
        modify fun s => { s with name := name, args := args }
        runWhole go .plain true ((rawChars bytes).filter (· != '\x00'))

def shellAct (start : Start) (name : String) (args : List String)
    (environment : List (String × String)) : Act :=
  let go := run start mostNested
  let session : Code Unit := do
    let s ← get
    match (readCommandLine (args.length + 1) args false).run s with
    | .error text => refuseStart text
    | .ok (line, s) =>
      set s
      refuseJobControl (s.hasOption 'i')
      runSession go line
    endShell go
  .look fun view => session (freshShell name environment view) fun result => .exit result.2.status

end TranscodingEngines.Script
