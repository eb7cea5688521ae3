import TranscodingEngines.Host.Script.Builtin.Variables

/-!
# Commands about signals and other processes
-/

set_option autoImplicit false

namespace TranscodingEngines.Script

def signalName (signal : Nat) : String :=
  if signal == 0 then "EXIT"
  else if signal == 34 then "RTMIN"
  else if 34 < signal && signal ≤ 49 then "RTMIN+" ++ toString (signal - 34)
  else if 49 < signal && signal < 64 then "RTMAX-" ++ toString (64 - signal)
  else if signal == 64 then "RTMAX"
  else
    match signalNames.find? fun entry => entry.2 == signal && signal != 16 with
    | some (name, _) => name
    | none => toString signal

def signalOf? (lowest : Nat) (text : String) : Option Nat :=
  match plainNumber? text with
  | some n => if lowest ≤ n && n ≤ lastSignal then some n else none
  | none =>
    let upper := text.map Char.toUpper
    ((List.range (lastSignal + 1)).drop lowest).find? fun n =>
      signalName n == upper && (plainNumber? (signalName n)).isNone

/-! ## Traps -/

/-- Sets what happens when a signal comes: nothing for what usually happens, and an empty command for
nothing at all. -/
def setTrap (signal : Nat) (command : Option String) : Code Unit := do
  modify fun s =>
    let others := s.traps.filter (·.1 != signal)
    { s with traps := match command with
      | some text => (signal, text) :: others
      | none => others }
  if signal != 0 then
    Task.handle signal (match command with
      | none => .standard
      | some text => if text.isEmpty then .ignored else .caught)

def setTraps (command : Option String) : List String → Builtin
  | [] => pure (some 0)
  | name :: rest =>
    match signalOf? 0 name with
    | none => do
      writeComplaint ("trap: " ++ name ++ ": bad trap\n")
      pure (some 1)
    | some signal => do
      setTrap signal command
      setTraps command rest

def trapCommand (args : List String) : Builtin :=
  withSwitches "" "" args fun switches => do
    match switches.args with
    | [] =>
      let sorted := (← get).traps.mergeSort fun a b => a.1 ≤ b.1
      say (sorted.flatMap fun t =>
        ("trap -- " ++ shellQuoted t.2 ++ " " ++ signalName t.1 ++ "\n").toList) 0
    | [name] => setTraps none [name]
    | command :: names =>
      match plainNumber? command with
      | some n =>
        if n ≤ lastSignal then setTraps none (command :: names)
        else setTraps (some command) names
      | none => setTraps (if command == "-" then none else some command) names

/-! ## Sending signals -/

def killUsage : String :=
  "Usage: kill [-s sigspec | -signum | -sigspec] [pid | job]... or\nkill -l [exitstatus]"

def jobNamed? (jobs : List Job) (text : String) : Option Job :=
  match text.toList with
  | '%' :: rest =>
    if rest.isEmpty || rest == ['%'] || rest == ['+'] then jobs.head?
    else
      match plainNumber? (String.ofList rest) with
      | some n => if n == 0 then none else jobs.reverse[n - 1]?
      | none => none
  | _ => none

/-- Sends a signal to processes, one after the other. Jobs are no groups of processes, so that no
signal reaches them by their own numbers. -/
def sendAll (signal : Nat) : (status : Nat) → List String → Builtin
  | status, [] => pure (some status)
  | status, target :: rest => do
    let absent : Builtin := do
      complain "No such process\n"
      sendAll signal 1 rest
    if target.startsWith "%" then
      match jobNamed? (← get).jobs target with
      | some _ => absent
      | none => fails ("No such job: " ++ target)
    else
      match wholeNumber? true target with
      | some n =>
        if ← Task.send (if 0 < n then some n.toNat else none) signal then
          sendAll signal status rest
        else absent
      | none => fails ("Illegal number: " ++ target)

def killCommand (args : List String) : Builtin := do
  let send (signal : Nat) (targets : List String) : Builtin :=
    if targets.isEmpty then fails killUsage else sendAll signal 0 targets
  let byName (name : String) (targets : List String) : Builtin :=
    match signalOf? 0 name with
    | some signal => send signal targets
    | none => fails ("invalid signal number or name: " ++ name)
  match args with
  | [] => fails killUsage
  | "-l" :: rest =>
    match rest with
    | [] =>
      let names := "0" :: ((List.range (lastSignal + 1)).drop 1).map signalName
      say (names.flatMap fun name => (name ++ "\n").toList) 0
    | text :: _ =>
      withNumber text fun n => do
        let n' := if 128 < n then n - 128 else n
        if 0 < n' && n' ≤ lastSignal then say (signalName n' ++ "\n").toList 0
        else fails ("invalid signal number or exit status: " ++ text)
  | "--" :: rest => send 15 rest
  | "-s" :: [] => fails "No arg for -s option"
  | "-s" :: name :: "--" :: rest => byName name rest
  | "-s" :: name :: rest => byName name rest
  | option :: rest =>
    match option.toList with
    | '-' :: c :: letters =>
      if c == 's' && signalOf? 0 (String.ofList (c :: letters)) == none then
        byName (String.ofList letters) rest
      else
        match signalOf? 0 (String.ofList (c :: letters)) with
        | some signal => send signal (if rest.head? == some "--" then rest.tail else rest)
        | none => fails ("Illegal option -" ++ String.singleton c)
    | _ => send 15 args

/-! ## Waiting -/

def statusOf : ProcessEnd → Nat
  | .exited status => status
  | .killed signal => 128 + signal

/-- What is said about a process that was killed. Interruption and broken pipes go without saying. -/
def announce (how : ProcessEnd) : Code Unit :=
  match how with
  | .killed signal =>
    if signal == 2 || signal == 13 then pure () else writeComplaint (signalText signal ++ "\n")
  | .exited _ => pure ()

def noteEnd (process : Nat) (how : ProcessEnd) : Code Unit :=
  modify fun s => { s with jobs := s.jobs.map fun job =>
    if job.processes.contains process then { job with ended := (process, how) :: job.ended }
    else job }

/-- Waits for processes in the background; nothing if a signal came first. -/
def waitFor (speaks : Bool) : List Nat → Code (Option Unit)
  | [] => pure (some ())
  | process :: rest => do
    match ← Task.await (some process) true with
    | .interrupted => pure none
    | .nobody => waitFor speaks rest
    | .ended _ how =>
      noteEnd process how
      if speaks then announce how
      waitFor speaks rest

def Job.remaining (job : Job) : List Nat :=
  job.processes.filter fun process => (job.ended.lookup process).isNone

def Job.status (job : Job) : Nat :=
  match job.processes.getLast?.bind fun process => job.ended.lookup process with
  | some how => statusOf how
  | none => 0

def signalStatus : Code Nat := do
  collectSignals
  return 128 + (← get).arrived.headD 0

def waitForEach : (status : Nat) → List String → Builtin
  | status, [] => pure (some status)
  | _, target :: rest => do
    let s ← get
    let await (job : Job) : Builtin := do
      match ← waitFor true job.remaining with
      | none => return some (← signalStatus)
      | some () =>
        let last := job.processes.getLast?
        let done := (← get).jobs.find? fun j => j.processes.getLast? == last
        waitForEach ((done.getD job).status) rest
    if target.startsWith "%" then
      match jobNamed? s.jobs target with
      | some job => await job
      | none => fails ("No such job: " ++ target)
    else
      withNumber target fun n =>
        match s.jobs.find? fun job => job.processes.getLast? == some n with
        | some job => await job
        | none => waitForEach 127 rest

def waitCommand (args : List String) : Builtin :=
  withSwitches "" "" args fun switches => do
    if !switches.args.isEmpty then waitForEach 0 switches.args
    else
      match ← waitFor false ((← get).jobs.flatMap Job.remaining) with
      | none => return some (← signalStatus)
      | some () => pure (some 0)

def noteEnds : List Nat → Code Unit
  | [] => pure ()
  | process :: rest => do
    noteEnds rest
    let view ← Task.look
    if let some how := view.ended? process then
      let _ ← Task.await (some process) false
      noteEnd process how

def Job.state (job : Job) : String :=
  if job.remaining.isEmpty then
    match job.processes.getLast?.bind fun process => job.ended.lookup process with
    | some (.killed signal) => signalText signal
    | some (.exited 0) => "Done"
    | some (.exited status) => "Done(" ++ toString status ++ ")"
    | none => "Done"
  else "Running"

def jobsCommand (args : List String) : Builtin :=
  withSwitches "lp" "" args fun switches => do
    noteEnds ((← get).jobs.flatMap Job.remaining)
    let s ← get
    let numbered := s.jobs.mapIdx fun i job => (s.jobs.length - i, job)
    let line (entry : Nat × Job) : String :=
      let (number, job) := entry
      let process := toString (job.processes.headD 0)
      if switches.has 'p' then process ++ "
"
      else
        let mark := if number == s.jobs.length then "+" else
          if number + 1 == s.jobs.length then "-" else " "
        let front := "[" ++ toString number ++ "] " ++ mark ++ " "
          ++ (if switches.has 'l' then process ++ " " else "") ++ job.state
        front ++ String.ofList (List.replicate (33 - front.length) ' ') ++ "
"
    match switches.args with
    | [] => do
      let result ← say (numbered.flatMap fun entry => (line entry).toList) 0
      modify fun s => { s with jobs := s.jobs.filter fun job => !job.remaining.isEmpty }
      pure result
    | names =>
      let wanted := names.map fun name => (name, jobNamed? s.jobs name)
      match wanted.find? (·.2.isNone) with
      | some (name, _) => fails ("No such job: " ++ name)
      | none =>
        say (numbered.flatMap fun entry =>
          if wanted.any (·.2 == some entry.2) then (line entry).toList else []) 0

/-- Refuses to move a job between foreground and background, which only happens at terminals. -/
def moveJobCommand (args : List String) : Builtin := do
  match jobNamed? (← get).jobs (args.headD "%"), (← get).jobs with
  | _, [] => fails "No current job"
  | none, _ => fails ("No such job: " ++ args.headD "")
  | some _, _ => fails "job (null) not created under job control"

end TranscodingEngines.Script
