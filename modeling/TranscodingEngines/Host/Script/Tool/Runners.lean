import TranscodingEngines.Host.Script.Commands
import TranscodingEngines.Host.Script.Tool.Words

/-!
# Programs that run others

A program gives way to another one, with another environment or other signals, or starts others and
waits for them.
-/

set_option autoImplicit false

namespace TranscodingEngines.Script

/-- Gives the process to another program; a cause comes back if there is none. A file that is no
program is taken for a script. -/
def becomeProgram (start : Start) (environment : List (String × String)) (name : String)
    (args : List String) : Task SystemError := fun next =>
  .look fun view =>
    let path := (environment.lookup "PATH").getD "/bin:/usr/bin"
    let directories := (path.splitOn ":").map fun directory => (⟨ofRaw directory⟩ : FilePath)
    let h : Host := { view.host with searchPath := directories }
    let take (image : Image) : Act := .spend loadTime fun _ => .turn fun _ => start image environment
    let place : Except SystemError String :=
      if name.isEmpty then .error .noSuchEntry
      else if name.toList.contains '/' then .ok name
      else placeOfProgram h name
    match place with
    | .error cause => next cause
    | .ok place =>
      match loadRaw h place name args with
      | .ok image => take image
      | .error .execFormat => take ⟨.shell, "/bin/sh", place :: args⟩
      | .error cause => next cause

def runnerStatus (cause : SystemError) : Nat := if cause == .noSuchEntry then 127 else 126

def variableArgument? (arg : String) : Option (String × String) :=
  let name := arg.toList.takeWhile (· != '=')
  if name.length < arg.length then
    some (String.ofList name, String.ofList (arg.toList.drop (name.length + 1)))
  else none

def withVariable (environment : List (String × String)) (v : String × String) :
    List (String × String) :=
  if environment.any (·.1 == v.1) then
    environment.map fun other => if other.1 == v.1 then v else other
  else environment ++ [v]

def splitText (text : List Char) : List String :=
  let rec go : List Char → (quote : Option Char) → (word : Option (List Char)) → List String
    | [], _, word => (word.map fun w => String.ofList w.reverse).toList
    | '\\' :: c :: rest, none, word => go rest none (some (c :: word.getD []))
    | c :: rest, none, word =>
      if isWhite c then (word.map fun w => String.ofList w.reverse).toList ++ go rest none none
      else if c == '"' || c == '\'' then go rest (some c) (some (word.getD []))
      else go rest none (some (c :: word.getD []))
    | c :: rest, some mark, word =>
      if c == mark then go rest none (some (word.getD []))
      else go rest (some mark) (some (c :: word.getD []))
  go text none none

def withSplitTexts : List String → List String
  | [] => []
  | arg :: rest =>
    match arg.toList with
    | '-' :: 'S' :: text =>
      if text.isEmpty then
        match rest with
        | text :: rest => splitText text.toList ++ rest
        | [] => [arg]
      else splitText text ++ rest
    | '-' :: c :: 'S' :: text =>
      if c == 'i' || c == 'v' then ("-" ++ String.singleton c) :: splitText text ++ rest
      else arg :: rest
    | '-' :: _ => arg :: withSplitTexts rest
    | _ => arg :: rest

def envTool (start : Start) : Tool := fun call =>
  let table : SwitchTable := ⟨"i0v", "uC", [("ignore-environment", 'i'), ("unset", 'u'),
    ("chdir", 'C'), ("null", '0')], true⟩
  let call := { call with args := withSplitTexts call.args }
  call.withSwitches table 125 fun a => do
    let clears := a.has 'i' || a.operands.head? == some "-"
    let operands := if a.operands.head? == some "-" then a.operands.tail else a.operands
    let removed := a.switches.filterMap fun s => if s.1 == 'u' then some s.2 else none
    let kept := if clears then []
      else call.environment.filter fun v => !removed.contains v.1
    let given := operands.takeWhile fun arg => (variableArgument? arg).isSome
    let environment := (given.filterMap variableArgument?).foldl withVariable kept
    if let some directory := a.value? 'C' then
      match (← Task.look).host.find ⟨ofRaw directory⟩ with
      | .ok (at_, .directory _) => Task.enter at_
      | .ok _ =>
        call.complain ("cannot change directory to " ++ inApostrophes directory
          ++ ": Not a directory")
        return 125
      | .error cause =>
        call.complain ("cannot change directory to " ++ inApostrophes directory ++ ": "
          ++ cause.words)
        return 125
    match operands.drop given.length with
    | [] =>
      call.finish (environment.flatMap fun v => (v.1 ++ "=" ++ v.2 ++ "\n").toList) 0
    | name :: args =>
      let cause ← becomeProgram start environment name args
      call.complain (inApostrophes name ++ ": " ++ cause.words)
      if cause == .noSuchEntry && name.toList.any isWhite then
        call.complain "use -[v]S to pass options in shebang lines"
      pure (runnerStatus cause)

def becomeOrComplain (start : Start) (call : ToolCall) (what : String → String) (name : String)
    (args : List String) : Task Nat := do
  let cause ← becomeProgram start call.environment name args
  call.complain (what name ++ ": " ++ cause.words)
  pure (runnerStatus cause)

def nohupTool (start : Start) : Tool := fun call =>
  call.withSwitches ⟨"", "", [], true⟩ 125 fun a => do
    match a.operands with
    | [] => call.misuse "missing operand" 125
    | name :: args =>
      Task.handle 1 .ignored
      becomeOrComplain start call (fun name => "failed to run command " ++ inApostrophes name) name
        args

def niceTool (start : Start) : Tool := fun call =>
  call.withSwitches ⟨"", "n", [("adjustment", 'n')], true⟩ 125 fun a => do
    let step := a.value? 'n'
    match step.map (wholeNumber? true), a.operands with
    | some none, _ =>
      call.complain ("invalid adjustment " ++ inApostrophes (step.getD ""))
      pure 125
    | some _, [] => call.misuse "a command must be given with an adjustment" 125
    | none, [] => call.finish "0\n".toList 0
    | _, name :: args => becomeOrComplain start call inApostrophes name args

def setsidTool (start : Start) : Tool := fun call =>
  call.withSwitches ⟨"cfw", "", [("ctty", 'c'), ("fork", 'f'), ("wait", 'w')], true⟩ 1 fun a => do
    match a.operands with
    | [] => call.misuse "no command specified" 1
    | name :: args => becomeOrComplain start call (fun name => "failed to execute " ++ name) name args

def timeoutTool (start : Start) : Tool := fun call =>
  let table : SwitchTable := ⟨"pvf", "sk", [("signal", 's'), ("kill-after", 'k'),
    ("preserve-status", 'p'), ("foreground", 'f'), ("verbose", 'v')], true⟩
  call.withSwitches table 125 fun a => do
    match a.operands with
    | [] => call.misuse "" 125
    | [_] => call.misuse "" 125
    | limit :: name :: args =>
      let named := (a.value? 's').getD "TERM"
      let bare := if named.startsWith "SIG" then String.ofList (named.toList.drop 3) else named
      match timeSpan? limit, signalOf? 0 bare, (a.value? 'k').map timeSpan? with
      | none, _, _ => call.misuse ("invalid time interval " ++ inApostrophes limit) 125
      | _, none, _ => call.misuse (inApostrophes named ++ ": invalid signal") 125
      | _, _, some none =>
        call.misuse ("invalid time interval " ++ inApostrophes ((a.value? 'k').getD "")) 125
      | some span, some signal, grace =>
        let child ← Task.fork fun _ =>
          becomeOrComplain start call (fun name => "failed to run command " ++ inApostrophes name)
            name args .exit
        let timer (span : Nat) : Task Nat :=
          Task.fork fun _ =>
            (do
              for stream in List.range 10 do
                Task.close stream
              Task.spend span : Task Unit) fun _ => .exit 0
        let statusOfEnd (how : ProcessEnd) : Nat := statusOf how
        match span with
        | none | some 0 =>
          match ← Task.await (some child) false with
          | .ended _ how => pure (statusOfEnd how)
          | _ => pure 125
        | some micros =>
          let clock ← timer micros
          match ← Task.await none false with
          | .ended id how =>
            if id == child then
              let _ ← Task.send (some clock) 9
              match how with
              | .killed 9 => Task.die 9
              | how => pure (statusOfEnd how)
            else
              let _ ← Task.send (some child) signal
              let final ← (do
                match grace.join.join with
                | none => Task.await (some child) false
                | some grace =>
                  let clock ← timer grace
                  match ← Task.await none false with
                  | .ended id how =>
                    if id == child then
                      let _ ← Task.send (some clock) 9
                      pure (.ended id how)
                    else
                      let _ ← Task.send (some child) 9
                      Task.await (some child) false
                  | other => pure other : Task Awaited)
              match final with
              | .ended _ (.killed 9) => Task.die 9
              | .ended _ how => pure (if a.has 'p' then statusOfEnd how else 124)
              | _ => pure 124
          | _ => pure 125

def killTool : Tool := fun call => do
  let sendAll (signal : Nat) (targets : List String) : Task Nat := do
    let mut status := 0
    for target in targets do
      match wholeNumber? true target with
      | none =>
        call.complain ("failed to parse argument: " ++ inApostrophes target)
        status := 1
      | some n =>
        if !(← Task.send (if 0 < n then some n.toNat else none) signal) then
          call.complain ("(" ++ target ++ "): No such process")
          status := 1
    pure status
  let byName (name : String) (targets : List String) : Task Nat := do
    let bare := if name.startsWith "SIG" then String.ofList (name.toList.drop 3) else name
    match signalOf? 0 bare with
    | some signal => sendAll signal targets
    | none =>
      call.complain ("unknown signal name " ++ name)
      pure 1
  match call.args with
  | ["-l", text] =>
    match signalOf? 0 text with
    | some n => call.finish (ended ((if (plainNumber? text).isSome then signalName n
        else toString n)).toList) 0
    | none => pure 1
  | "-s" :: name :: rest => byName name rest
  | "--" :: rest => sendAll 15 rest
  | option :: rest =>
    match option.toList with
    | '-' :: c :: letters => byName (String.ofList (c :: letters)) rest
    | _ => sendAll 15 call.args
  | [] => pure 1

/-! ## xargs -/

abbrev ItemFault := String

def unmatchedQuote (mark : Char) : ItemFault :=
  "unmatched " ++ (if mark == '"' then "double" else "single")
    ++ " quote; by default quotes are special to xargs unless you use the -0 option"

/-- Splits a text into items between blanks, with quotation marks and backslashes; each comes with
whether a line ends behind it. -/
def splitItems (byLine : Bool) : List Char → (quote : Option Char) → (word : Option (List Char)) →
    Except ItemFault (List (String × Bool))
  | [], none, word => .ok ((word.map fun w => (String.ofList w.reverse, true)).toList)
  | [], some mark, _ => .error (unmatchedQuote mark)
  | '\\' :: c :: rest, none, word => splitItems byLine rest none (some (c :: word.getD []))
  | c :: rest, none, word =>
    let separates := if byLine then c == '\n' else isSpace c
    if separates then do
      let more ← splitItems byLine rest none none
      pure ((word.map fun w => (String.ofList w.reverse, c == '\n')).toList ++ more)
    else if byLine && isSpace c && word.isNone then splitItems byLine rest none none
    else if c == '"' || c == '\'' then splitItems byLine rest (some c) (some (word.getD []))
    else splitItems byLine rest none (some (c :: word.getD []))
  | c :: rest, some mark, word =>
    if c == mark then splitItems byLine rest none (some (word.getD []))
    else if c == '\n' then .error (unmatchedQuote mark)
    else splitItems byLine rest (some mark) (some (c :: word.getD []))

def inGroups (most : Nat) (items : List String) : List (List String) :=
  let rec go : (steps : Nat) → List String → List (List String)
    | 0, _ => []
    | steps + 1, items =>
      if items.isEmpty then [] else items.take (max 1 most) :: go steps (items.drop (max 1 most))
  go items.length items

def replaceAll (part new text : String) : String :=
  if part.isEmpty then text else new.intercalate (text.splitOn part)

def xargsTool (start : Start) : Tool := fun call =>
  let table : SwitchTable := ⟨"0rtxp", "nILPdsEi", [("null", '0'), ("no-run-if-empty", 'r'),
    ("max-args", 'n'), ("max-lines", 'L'), ("delimiter", 'd'), ("verbose", 't'),
    ("max-procs", 'P'), ("replace", 'I')], true⟩
  call.withSwitches table 1 fun a => do
    let badCount := "nLP".toList.find? fun c => (a.value? c).any fun text => (plainNumber? text).isNone
    if let some c := badCount then
      return (← call.misuse ("invalid number \"" ++ (a.value? c).getD "" ++ "\" for -"
        ++ String.singleton c ++ " option") 1)
    match ← readPath "-" with
    | .error cause =>
      call.complain ("read error: " ++ cause.words)
      pure 1
    | .ok bytes =>
      let chars := rawChars bytes
      let byLine := (a.value? 'I').isSome
      let sign? : Option Char := if a.has '0' then some '\x00'
        else (a.value? 'd').map fun text =>
          if text == "\\n" then '\n' else if text == "\\0" then '\x00' else text.toList.headD '\n'
      let items : Except ItemFault (List (String × Bool)) := match sign? with
        | some sign =>
          let parts := splitWhere (· == sign) chars
          let parts := if parts.getLast? == some [] then parts.dropLast else parts
          .ok (parts.map fun part => (String.ofList part, true))
        | none => splitItems byLine chars none none
      match items with
      | .error text =>
        call.complain text
        pure 1
      | .ok items =>
        let command := if a.operands.isEmpty then ["echo"] else a.operands
        let texts := items.map (·.1)
        let calls : List (List String) :=
          match a.value? 'I' with
          | some part =>
            texts.map fun item => command.map (replaceAll part item)
          | none =>
            let groups : List (List String) := match a.value? 'L', (a.value? 'n').bind plainNumber? with
              | some _, _ => (items.foldr (fun item (found : List (List String)) =>
                  if item.2 then [item.1] :: found
                  else match found with
                    | group :: rest => (item.1 :: group) :: rest
                    | [] => [[item.1]]) [])
              | none, some n => inGroups n texts
              | none, none => if texts.isEmpty then [] else [texts]
            let groups := if groups.isEmpty && !a.has 'r' then [[]] else groups
            groups.map (command ++ ·)
        let mut status := 0
        for words in calls do
          if status < 124 then
            let name := words.headD ""
            if a.has 't' then
              let _ ← Task.write 2 (bytesOf (" ".intercalate words ++ "\n"))
            let child ← Task.fork fun _ =>
              (do
                let _ ← Task.connect 0 .read ⟨"/dev/null"⟩
                becomeOrComplain start call id name words.tail : Task Nat) .exit
            match ← Task.await (some child) false with
            | .ended _ (.exited 0) => pure ()
            | .ended _ (.exited 255) =>
              call.complain (name ++ ": exited with status 255; aborting")
              status := 124
            | .ended _ (.exited 126) => status := 126
            | .ended _ (.exited 127) => status := 127
            | .ended _ (.exited _) => status := 123
            | .ended _ (.killed signal) =>
              call.complain (name ++ ": terminated by signal " ++ toString signal)
              status := 125
            | _ => pure ()
        pure status

end TranscodingEngines.Script
