import TranscodingEngines.Host.System
import TranscodingEngines.Verification

/-!
# Running programs under a watch

A program that was started is looked at every ten milliseconds. At each look, an end that has come
counts first, then a wish to interrupt, then the deadline. After the end its output is collected:
what still holds a stream open is waited for until the deadline, and for a short time in any case.
A stream that stays open longer yields the lines that are complete by then. A run may change the
files of the host and takes time, so it leaves another host behind.

The deadline is set when the program has been started, and the end of the collecting when it has
ended. If the clock cannot name one of these moments, the watch fails and takes the whole program
down.
-/

set_option autoImplicit false

namespace TranscodingEngines

/-- Why a watched run gives no output. -/
inductive Unfinished where
  | failed (failure : RunFailure)
  /-- The clock cannot name a moment that the watch needs, which takes the whole program down. -/
  | clockExhausted
  deriving DecidableEq, Repr

/-- What verification makes of a run without output. Nothing is called behind one that takes the
program down, as if it had been interrupted. -/
def Unfinished.failure : Unfinished → RunFailure
  | failed failure => failure
  | clockExhausted => .interrupted

abbrev Ending := Except Unfinished Output

def ProcessEnd.exitCode : ProcessEnd → Int
  | exited status => status
  | killed _ => -1

namespace Host

def lookEvery : Nat := 10000

/-- The time that the start and the end of a program take at least, in microseconds. -/
def startTime : Nat := 1000

def lookAt (moment : Nat) : Nat := (moment + lookEvery - 1) / lookEvery

def microsUp (d : Duration) : Nat := (d.nanos + 999) / 1000

def deadlineLook (timeout : Duration) : Nat := lookAt (microsUp timeout)

def interruptLook (interruptedAt : Option Nat) : Option Nat :=
  interruptedAt.map fun millis => lookAt (millis * 1000)

def lastLook (timeout : Duration) (interruptedAt : Option Nat) : Nat :=
  min (deadlineLook timeout) ((interruptLook interruptedAt).getD (deadlineLook timeout))

def givenUp (timeout : Duration) (interruptedAt : Option Nat) : RunFailure :=
  if (interruptLook interruptedAt).any (· ≤ deadlineLook timeout) then .interrupted
  else .timedOut timeout

def timeOf (h : Host) (look : Nat) : Instant := h.started.later (.ofMicros (look * lookEvery))

def showing (h : Host) (i : Instant) : Host := { h with started := i }

end Host

/-- The part of a stream up to its last line feed. -/
def completeLines (stream : List UInt8) : List UInt8 :=
  (stream.reverse.dropWhile (· != 10)).reverse

namespace System

variable (s : System)

def closesBefore (p : s.UnderWay) (sink : Sink) (deadline : Nat) : Bool :=
  (s.closedAt? p sink).any (· < deadline)

def collectedLines (p : s.UnderWay) (sink : Sink) (deadline : Nat) : List String :=
  let stream := s.writtenTo p sink deadline
  Text.streamLines (if s.closesBefore p sink deadline then stream else completeLines stream)

def collected (p : s.UnderWay) (exitCode : Int) (deadline : Nat) : Output where
  exitCode := exitCode
  lines := s.collectedLines p .out deadline ++ s.collectedLines p .err deadline
  isComplete := s.closesBefore p .out deadline && s.closesBefore p .err deadline

def collectedAt (p : s.UnderWay) (deadline : Nat) : Nat :=
  let closed (sink : Sink) : Nat := (s.closedAt? p sink).getD deadline
  min deadline (max (closed .out) (closed .err))

/-- A loaded program, run until the last look. -/
def perform (h : Host) (loaded : s.Loaded) (timeout : Duration) (interruptedAt : Option Nat) :
    s.UnderWay :=
  s.advance (Host.lastLook timeout interruptedAt * Host.lookEvery) (s.start h loaded)

/-- How a program ended, and the look that finds it ended, if that is not behind the last one. -/
def endSeen (p : s.UnderWay) (last : Nat) : Option (ProcessEnd × Nat) :=
  match s.ending? p with
  | none => none
  | some (ending, moment) =>
    let look := Host.lookAt (moment + Host.startTime)
    if last < look then none else some (ending, look)

/-- Collects the output of a program that a look has found ended, until the deadline and for a short
time in any case. -/
def collect (h : Host) (p : s.UnderWay) (ending : ProcessEnd) (look : Nat) (deadline : Instant) :
    Ending × Host :=
  match (h.timeOf look).after? drainGrace with
  | none => (.error .clockExhausted, (s.hostNow p).showing (h.timeOf look))
  | some grace =>
    let last := Host.microsUp ((deadline.latest grace).since h.started)
    let p := s.advance last p
    let collected := h.started.later (.ofMicros (s.collectedAt p last))
    (.ok (s.collected p ending.exitCode last),
      (s.hostNow p).showing ((h.timeOf look).latest collected))

/-- Starts a program and watches it until it ends, is interrupted, or has used up its time. The
host afterwards comes with how that ends. -/
def run (h : Host) (timeout : Duration) (interruptedAt : Option Nat) (call : Call) :
    Ending × Host :=
  match s.load h call with
  | .error cause => (.error (.failed (.launch cause.message)), h)
  | .ok loaded =>
    match h.started.after? timeout with
    | none => (.error .clockExhausted, h)
    | some deadline =>
      let p := s.perform h loaded timeout interruptedAt
      match s.endSeen p (Host.lastLook timeout interruptedAt) with
      | none =>
        (.error (.failed (Host.givenUp timeout interruptedAt)),
          (s.hostNow p).showing (h.timeOf (Host.lastLook timeout interruptedAt)))
      | some (ending, look) => s.collect h p ending look deadline

/-- Starts a program unless the wish to interrupt is already there. -/
def runUnless (h : Host) (timeout : Duration) (interrupted : Bool) (interruptedAt : Option Nat)
    (call : Call) : Ending × Host :=
  if interrupted then (.error (.failed .interrupted), h) else s.run h timeout interruptedAt call

end System

/-- How programs fare on a host that are called with a time limit: how the run ends, and the host
afterwards. -/
abbrev Programs := Host → Duration → Call → Ending × Host

namespace Programs

def ofSystem (s : System) (interrupted : Bool) : Programs := fun h limit call =>
  s.runUnless h limit interrupted none call

def after (programs : Programs) (h : Host) (limit : Duration) (calls : List Call) : Host :=
  calls.foldl (fun h call => (programs h limit call).2) h

def runner (programs : Programs) (h : Host) (limit : Duration) : Runner := fun earlier call =>
  (programs (programs.after h limit earlier) limit call).1.mapError Unfinished.failure

def takesDown (programs : Programs) (limit : Duration) : Host → List Call → Bool
  | _, [] => false
  | h, call :: rest =>
    match programs h limit call with
    | (.error .clockExhausted, _) => true
    | (_, h) => takesDown programs limit h rest

def environment (programs : Programs) (h : Host) (platform : Platform) (limit : Duration) :
    Environment :=
  ⟨platform, .ok h.workingDirectory, fun earlier => (programs.after h limit earlier).checkExecutable,
    programs.runner h limit, fun earlier => (programs.after h limit earlier).clock⟩

end Programs

end TranscodingEngines
