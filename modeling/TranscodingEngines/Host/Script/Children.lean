import TranscodingEngines.Host.Script.Redirections
import TranscodingEngines.Host.Script.Builtin.Signals
import TranscodingEngines.Host.Script.Reader

/-!
# Texts and copies of the shell

A shell carries out the commands of a text line by line. For some commands it makes a copy of itself
as a process of its own: the copy has the same variables and functions, but no traps and no jobs.
-/

set_option autoImplicit false

namespace TranscodingEngines.Script

structure Manner where
  tested : Bool
  final : Bool
  deriving DecidableEq, Repr

namespace Manner

def plain : Manner := ⟨false, false⟩

def condition : Manner := ⟨true, false⟩

def followed (m : Manner) : Manner := ⟨m.tested, false⟩

def last (m : Manner) : Manner := ⟨m.tested, true⟩

end Manner

abbrev Go := Manner → Command → Code Unit

/-! ## Texts -/

def keepDocuments (r : Reader) : Code Unit :=
  modify fun s =>
    { s with documents := r.documents ++ s.documents, nextDocument := r.nextDocument }

def showLines (before after : Reader) : Code Unit := do
  if (← get).hasOption 'v' then
    let length := before.rest.length - after.rest.length
    writeComplaint (String.ofList (before.rest.take length))

/-- Runs the commands of a text line by line. The first value says whether it was a script up to the
point where it was left, the second one whether there were any commands. -/
def runLines (go : Go) (manner : Manner) (isFile : Bool) : (steps : Nat) → (ran : Bool) → Reader →
    Code (Bool × Bool)
  | 0, ran, _ => pure (true, ran)
  | steps + 1, ran, reader => do
    let reader := { reader with aliases := (← get).aliases }
    match reader.next with
    | .error (line, fault) =>
      if isFile then showLines reader { reader with rest := [] }
      atLine line
      complain ("Syntax error: " ++ fault.message)
      pure (false, ran)
    | .ok (found, after) =>
      if isFile then showLines reader after
      keepDocuments after
      let next := { after with documents := [] }
      match found with
      | none => pure (true, ran)
      | some .nothing => runLines go manner isFile steps ran next
      | some command =>
        go ⟨manner.tested, manner.final && after.isDone⟩ command
        if ← isRunning then runLines go manner isFile steps true next else pure (true, true)

/-- Runs a text. The status is zero if there are no commands in it. The value says whether the text
was a script. -/
def runText (go : Go) (manner : Manner) (isFile : Bool) (text : List Char) : Code Bool := do
  let s ← get
  let reader := Reader.start text s.nextDocument s.aliases
  let (isScript, ran) ← runLines go manner isFile (text.length + 2) false reader
  if isScript && !ran then setStatus 0
  pure isScript

/-! ## Traps -/

def runArrived (go : Go) : List Nat → Code Unit
  | [] => pure ()
  | signal :: rest => do
    let s ← get
    match s.traps.lookup signal with
    | none => runArrived go rest
    | some text =>
      set { s with trapStatus := some s.status }
      if !(← runText go .plain false text.toList) then leave 2
      modify fun t => { t with
        trapStatus := s.trapStatus
        status := if t.flow == .returning || t.flow == .exited then t.status else s.status }
      if ← isRunning then runArrived go rest
      else modify fun t => { t with arrived := rest ++ t.arrived }

def runTraps (go : Go) : Code Unit := do
  let s ← get
  if s.hasTraps && s.isRunning then
    collectSignals
    let arrived := (← get).arrived.mergeSort fun a b => a ≤ b
    if !arrived.isEmpty then
      modify fun s => { s with arrived := [] }
      runArrived go arrived

def endShell (go : Go) : Code Unit := do
  let s ← get
  match s.traps.lookup 0 with
  | none => pure ()
  | some text =>
    set { s with
      traps := s.traps.filter (·.1 != 0)
      flow := .running
      trapStatus := some s.status }
    if !(← runText go .plain false text.toList) then leave 2
    modify fun t => t.withStatus (if t.flow == .exited then t.status else s.status)

/-! ## Copies -/

def backgroundIgnored : List Nat := [2, 3]

def clearTraps : Code Unit := do
  for t in (← get).traps do
    if t.1 != 0 && !t.2.isEmpty then Task.handle t.1 .standard
  modify fun s => { s with traps := s.traps.filter fun t => t.2.isEmpty && t.1 != 0, arrived := [] }

/-- Starts a copy of the shell that runs something and ends. The first process in the background
reads nothing. -/
def startChild (go : Go) (isBackground isFirst : Bool) (body : Code Unit) : Code Nat :=
  startCopy (do
    clearTraps
    modify fun s => { s with jobs := [] }
    if isBackground then
      for signal in backgroundIgnored do
        Task.handle signal .ignored
      if isFirst then
        let _ ← Task.connect 0 .read ⟨"/dev/null"⟩
    body
    endShell go) fun s => .exit s.status

/-- Waits for processes and tells about those that were killed; the status is that of the last. -/
def waitForChildren : List Nat → Code Nat
  | [] => pure 0
  | [last] => do
    match ← Task.await (some last) false with
    | .ended _ how =>
      announce how
      pure (statusOf how)
    | _ => pure 127
  | first :: rest => do
    if let .ended _ how ← Task.await (some first) false then announce how
    waitForChildren rest

def runApart (go : Go) (body : Code Unit) : Code Unit := do
  let child ← startChild go false false body
  let status ← waitForChildren [child]
  setStatus status

def readAll (stream : Nat) : (steps : Nat) → List (List UInt8) → Task (List UInt8)
  | 0, found => pure found.reverse.flatten
  | steps + 1, found => do
    match ← Task.read stream 65536 none with
    | .ok [] => pure found.reverse.flatten
    | .ok bytes => readAll stream steps (bytes :: found)
    | .error _ => pure found.reverse.flatten

def mostPortions : Nat := 1000000

/-- Runs a command in a copy of the shell and gives what it writes, without the line feeds at the
end. -/
def captureWith (go : Go) : Capture
  | .nothing => pure []
  | command => do
    let (reading, writing) ← Task.pipe
    let child ← startChild go false false do
      Task.close reading
      let _ ← Task.copy writing 1
      Task.close writing
      go ⟨false, true⟩ command
    Task.close writing
    let bytes ← readAll reading mostPortions []
    Task.close reading
    let status ← waitForChildren [child]
    modify fun s => { s with outputStatus := status }
    pure (Text.dropTrailing (· == '\n') ((rawChars bytes).filter (· != '\x00')))

def startStages (go : Go) (manner : Manner) (isBackground : Bool) :
    (input : Option Nat) → List Command → List Nat → Code (List Nat)
  | _, [], started => pure started.reverse
  | input, stage :: rest, started => do
    let pipe ← (do if rest.isEmpty then pure none else pure (some (← Task.pipe)) :
      Code (Option (Nat × Nat)))
    let child ← startChild go isBackground started.isEmpty do
      if let some (reading, _) := pipe then Task.close reading
      if let some reading := input then
        let _ ← Task.copy reading 0
        Task.close reading
      if let some (_, writing) := pipe then
        let _ ← Task.copy writing 1
        Task.close writing
      go ⟨manner.tested && !isBackground, true⟩ stage
    if let some reading := input then Task.close reading
    if let some (_, writing) := pipe then Task.close writing
    startStages go manner isBackground (pipe.map (·.1)) rest (child :: started)

def noteJob (processes : List Nat) : Code Unit :=
  modify fun s => { s with
    jobs := ⟨processes, []⟩ :: s.jobs
    lastProcess := processes.getLast?.or s.lastProcess }

end TranscodingEngines.Script
