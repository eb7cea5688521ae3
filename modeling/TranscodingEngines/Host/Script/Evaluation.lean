import TranscodingEngines.Host.Script.Commands

/-!
# Running commands

Commands change the state of a shell. A command that fails ends the shell if that is asked for,
unless its failure is looked at. Running is bounded: commands nest only so deep, and a loop that has
taken very many turns is taken for one that never ends.
-/

set_option autoImplicit false

namespace TranscodingEngines.Script

def mostTurns : Nat := 1000000000

def mostNested : Nat := 100000

def checked (go : Go) (manner : Manner) (body : Code Unit) : Code Unit := do
  body
  runTraps go
  let s ← get
  if s.isRunning && s.status != 0 && s.hasOption 'e' && !manner.tested then leave s.status

def runSubshell (go : Go) (manner : Manner) (line : Nat) (body : Code Unit) : Code Unit := do
  atLine line
  let s ← get
  if manner.final && !s.hasTraps then
    body
    modify fun s => { s with flow := .exited }
  else runApart go body

/-- Runs a command of its own with redirections that cannot be taken back. -/
def settled (capture : Capture) (depth : Nat) (redirections : List Redirection) (body : Code Unit) :
    Code Unit := do
  let routes ← routesOf capture depth redirections
  if ← isRunning then
    let (kept, opened) ← followAll routes []
    forgetKept kept
    if opened then body else leave 2

def runBehind (go : Go) (depth : Nat) (line : Nat) (command : Command)
    (redirections : List Redirection) : Code Unit := do
  atLine line
  match command, redirections with
  | .pipeline stages, [] =>
    let processes ← startStages go .plain true none stages []
    noteJob processes
  | command, redirections =>
    let child ← startChild go true true
      (settled (captureWith go) depth redirections (go ⟨false, true⟩ command))
    noteJob [child]
  setStatus 0

/-- Counts off a loop that is left or turned, and says whether the present loop goes on. -/
def afterTurn : Code Bool := do
  let s ← get
  match s.flow with
  | .running => pure true
  | .breaking loops =>
    set { s with flow := if loops ≤ 1 then .running else .breaking (loops - 1) }
    pure false
  | .continuing loops =>
    set { s with flow := if loops ≤ 1 then .running else .continuing (loops - 1) }
    pure (loops ≤ 1)
  | _ => pure false

def takeTurns (go : Go) (manner : Manner) (untilTrue : Bool) (condition body : Command) :
    (turns : Nat) → (status : Nat) → Code Unit
  | 0, status => setStatus status
  | turns + 1, status => do
    go .condition condition
    let s ← get
    if !s.isRunning then
      if ← afterTurn then takeTurns go manner untilTrue condition body turns status
      else modify fun t =>
        if t.flow == .returning || t.flow == .exited then t else t.withStatus status
    else if (s.status == 0) == untilTrue then setStatus status
    else
      go manner.followed body
      if ← afterTurn then
        let status := (← get).status
        takeTurns go manner untilTrue condition body turns status

def takeEach (go : Go) (manner : Manner) (name : String) (body : Command) :
    List String → Code Unit
  | [] => pure ()
  | value :: rest => do
    assignOrLeave name value
    if ← isRunning then
      go manner.followed body
      if ← afterTurn then takeEach go manner name body rest

def looping (body : Code Unit) : Code Unit := do
  modify fun s => { s with loopDepth := s.loopDepth + 1 }
  body
  modify fun s => { s with loopDepth := s.loopDepth - 1 }

def matchesAny (capture : Capture) (depth : Nat) (subject : List Char) : List Word → Code Bool
  | [] => pure false
  | word :: rest => do
    let pattern ← expandPattern capture depth word
    if !(← isRunning) then pure false
    else if patternMatches pattern subject then pure true
    else matchesAny capture depth subject rest

/-- Runs the first case with a pattern that describes a text. -/
def choose (go : Go) (depth : Nat) (manner : Manner) (subject : List Char) :
    List (List Word × Command) → Code Unit
  | [] => setStatus 0
  | (shapes, body) :: rest => do
    let found ← matchesAny (captureWith go) depth subject shapes
    if !(← isRunning) then return
    if found then
      match body with
      | .nothing => setStatus 0
      | body => go manner body
    else choose go depth manner subject rest

/-- Runs a command. `depth` bounds the nesting of commands; a shell that goes deeper breaks down. -/
def run (start : Start) : (depth : Nat) → Manner → Command → Code Unit
  | 0, _, _ => Task.die 11
  | depth + 1, manner, command => do
    let s ← get
    if !s.isRunning || s.hasOption 'n' then return
    let go := run start depth
    let capture := captureWith go
    match command with
    | .nothing => pure ()
    | .simple line assignments words redirections =>
      checked go manner (runSimple start go depth manner line assignments words redirections)
    | .sequence first second =>
      go manner.followed first
      go manner second
    | .both first second =>
      go .condition first
      if (← get).status == 0 then go manner second
    | .either first second =>
      go .condition first
      if (← get).status != 0 then go manner second
    | .negation command =>
      go .condition command
      modify fun s =>
        if s.flow == .exited then s else s.withStatus (if s.status == 0 then 1 else 0)
    | .pipeline stages =>
      checked go manner do
        let processes ← startStages go manner false none stages []
        let status ← waitForChildren processes
        setStatus status
    | .background line command redirections =>
      checked go manner (runBehind go depth line command redirections)
    | .loop untilTrue condition body =>
      looping (takeTurns go manner untilTrue condition body mostTurns 0)
    | .branch condition yes no =>
      go .condition condition
      let s ← get
      if s.isRunning then
        if s.status == 0 then go manner yes
        else
          setStatus 0
          go manner no
    | .each line name items body =>
      atLine line
      let values ← expandAll capture depth items
      if ← isRunning then
        setStatus 0
        looping (takeEach go manner name body values)
    | .choice line subject cases =>
      atLine line
      let text ← expandText capture depth subject
      if ← isRunning then choose go depth manner text.toList cases
    | .subshell line body redirections =>
      checked go manner (runSubshell go manner line
        (settled capture depth redirections (go ⟨manner.tested, true⟩ body)))
    | .redirected line body redirections =>
      atLine line
      rerouted capture depth redirections (go manner.followed body)
    | .definition _ name body =>
      modify fun s => { s with
        functions := (name, body) :: s.functions.filter (·.1 != name)
        status := 0 }

end TranscodingEngines.Script
