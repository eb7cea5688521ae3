import TranscodingEngines.Host.Task

/-!
# Machines at work

A machine runs processes side by side, each with its own moment in time. The one whose moment comes
first takes the next step; a process that waits takes it when what it waits for has come. Moments
are counted in microseconds. What is written to standard output and standard error is kept with its
moment, and so is the moment at which nobody can write there any more.
-/

set_option autoImplicit false

namespace TranscodingEngines

structure Chunk where
  moment : Nat
  sink : Sink
  bytes : List UInt8
  deriving DecidableEq, Repr

structure Process where
  id : Nat
  parent : Nat
  moment : Nat
  act : Act
  streams : List (Nat × Nat)
  handling : List (Nat × Handling)
  pending : List Nat
  directory : Location
  umask : Nat
  isStopped : Bool
  ended : Option ProcessEnd

/-- What is in a pipe: the bytes that are read next, and behind them what was written later, the
last first. -/
structure Pipe where
  front : List UInt8
  back : List (List UInt8)
  size : Nat

namespace Pipe

def empty : Pipe := ⟨[], [], 0⟩

def add (pipe : Pipe) (bytes : List UInt8) : Pipe :=
  ⟨pipe.front, bytes :: pipe.back, pipe.size + bytes.length⟩

/-- The pipe with something in front, unless it is empty. -/
def ready (pipe : Pipe) : Pipe :=
  if pipe.front.isEmpty then ⟨pipe.back.reverse.flatten, [], pipe.size⟩ else pipe

def drop (pipe : Pipe) (count : Nat) : Pipe :=
  ⟨pipe.front.drop count, pipe.back, pipe.size - count⟩

end Pipe

/-- What was written at the end of a file and does not stand in the host yet, the last first, and how
long the file is with it. -/
structure Draft where
  length : Nat
  back : List (List UInt8)

structure Machine where
  host : Host
  processes : List Process
  channels : List (Nat × Channel)
  pipes : List (Nat × Pipe)
  drafts : List (Location × Draft)
  /-- The next number for a process, a channel or a pipe. -/
  fresh : Nat
  written : List Chunk
  now : Nat
  closings : List (Sink × Nat)

def signalNames : List (String × Nat) :=
  [("HUP", 1), ("INT", 2), ("QUIT", 3), ("ILL", 4), ("TRAP", 5), ("ABRT", 6), ("BUS", 7),
    ("FPE", 8), ("KILL", 9), ("USR1", 10), ("SEGV", 11), ("USR2", 12), ("PIPE", 13), ("ALRM", 14),
    ("TERM", 15), ("STKFLT", 16), ("CHLD", 17), ("CONT", 18), ("STOP", 19), ("TSTP", 20),
    ("TTIN", 21), ("TTOU", 22), ("URG", 23), ("XCPU", 24), ("XFSZ", 25), ("VTALRM", 26),
    ("PROF", 27), ("WINCH", 28), ("IO", 29), ("PWR", 30), ("SYS", 31)]

def lastSignal : Nat := 64

/-- What the system says about a process that was killed by a signal. -/
def signalText (signal : Nat) : String :=
  let texts : List (Nat × String) :=
    [(1, "Hangup"), (2, "Interrupt"), (3, "Quit"), (4, "Illegal instruction"),
      (5, "Trace/breakpoint trap"), (6, "Aborted"), (7, "Bus error"),
      (8, "Floating point exception"), (9, "Killed"), (10, "User defined signal 1"),
      (11, "Segmentation fault"), (12, "User defined signal 2"), (13, "Broken pipe"),
      (14, "Alarm clock"), (15, "Terminated"), (16, "Stack fault"), (17, "Child exited"),
      (18, "Continued"), (19, "Stopped (signal)"), (20, "Stopped"), (21, "Stopped (tty input)"),
      (22, "Stopped (tty output)"), (23, "Urgent I/O condition"), (24, "CPU time limit exceeded"),
      (25, "File size limit exceeded"), (26, "Virtual timer expired"),
      (27, "Profiling timer expired"), (28, "Window changed"), (29, "I/O possible"),
      (30, "Power failure"), (31, "Bad system call")]
  match texts.lookup signal with
  | some text => text
  | none =>
    if 34 ≤ signal && signal ≤ 64 then "Real-time signal " ++ toString (signal - 34)
    else "Unknown signal " ++ toString signal

/-- Signals that do nothing unless they are caught. -/
def idleSignals : List Nat := [17, 18, 23, 28]

/-- Signals that stop a process unless they are caught. -/
def stopSignals : List Nat := [19, 20, 21, 22]

def strictSignals : List Nat := [9, 19]

namespace Process

def isAlive (p : Process) : Bool := p.ended.isNone

def handlingOf (p : Process) (signal : Nat) : Handling :=
  if strictSignals.contains signal then .standard
  else (p.handling.lookup signal).getD .standard

def connected (p : Process) (stream channel : Nat) : Process :=
  { p with streams := (stream, channel) :: p.streams.filter (·.1 != stream) }

def disconnected (p : Process) (stream : Nat) : Process :=
  { p with streams := p.streams.filter (·.1 != stream) }

def freeStream (p : Process) : Nat := p.streams.foldl (fun n stream => max n (stream.1 + 1)) 10

end Process

namespace Machine

def firstProcess : Nat := 4000

def pipeSize : Nat := 65536

/-- A machine on which a program starts at moment zero, with nothing to read. -/
def start (host : Host) (act : Act) : Machine where
  host := host
  processes := [⟨firstProcess, 1, 0, act, [(0, 0), (1, 1), (2, 2)], [], [], host.directory, 0o022,
    false, none⟩]
  channels := [(0, .device .null), (1, .sink .out), (2, .sink .err)]
  pipes := []
  drafts := []
  fresh := firstProcess + 1
  written := []
  now := 0
  closings := []

def hostNow (m : Machine) : Host :=
  m.drafts.foldr (fun draft h =>
    match h.files.get? draft.1 with
    | some (.file _ bytes) => h.store draft.1 (bytes ++ draft.2.back.reverse.flatten)
    | _ => h) m.host

def settled (m : Machine) : Machine :=
  if m.drafts.isEmpty then m else { m with host := m.hostNow, drafts := [] }

def hostOf (m : Machine) (p : Process) : Host := { m.host with directory := p.directory }

def withHost (m : Machine) (h : Host) : Machine :=
  { m with host := { h with directory := m.host.directory } }

def put (m : Machine) (p : Process) : Machine :=
  { m with processes := m.processes.map fun q => if q.id == p.id then p else q }

def channelOf (m : Machine) (p : Process) (stream : Nat) : Option (Nat × Channel) :=
  (p.streams.lookup stream).bind fun number =>
    (m.channels.lookup number).map fun channel => (number, channel)

def setChannel (m : Machine) (number : Nat) (channel : Channel) : Machine :=
  { m with channels := m.channels.map fun c => if c.1 == number then (number, channel) else c }

def hasReaders (m : Machine) (pipe : Nat) : Bool :=
  m.channels.any fun c => c.2 == .reading pipe

def hasWriters (m : Machine) (pipe : Nat) : Bool :=
  m.channels.any fun c => c.2 == .writing pipe

def inPipe (m : Machine) (pipe : Nat) : Pipe := (m.pipes.lookup pipe).getD .empty

def fillPipe (m : Machine) (pipe : Nat) (content : Pipe) : Machine :=
  { m with pipes := m.pipes.map fun p => if p.1 == pipe then (pipe, content) else p }

/-- Drops the channels and pipes that nobody is connected to, and notes which sinks were closed. -/
def sweep (m : Machine) : Machine :=
  let inUse (number : Nat) : Bool := m.processes.any fun p => p.streams.any (·.2 == number)
  let (kept, dropped) := m.channels.partition fun c => inUse c.1
  if dropped.isEmpty then m
  else
    let closed := dropped.filterMap fun c => match c.2 with
      | .sink sink => some (sink, m.now)
      | _ => none
    { m with
      channels := kept
      pipes := m.pipes.filter fun p =>
        kept.any fun c => c.2 == .reading p.1 || c.2 == .writing p.1
      closings := closed ++ m.closings }

/-- Forgets the processes that ended and of whose end nobody will ask. -/
def bury (m : Machine) : Machine :=
  let isAwaited (p : Process) : Bool :=
    p.id == firstProcess || m.processes.any fun q => q.id == p.parent && q.isAlive
  { m with processes := m.processes.filter fun p => p.isAlive || isAwaited p }

def finish (m : Machine) (p : Process) (how : ProcessEnd) : Machine :=
  (m.put { p with streams := [], pending := [], ended := some how }).sweep.bury

def signalled (m : Machine) (p : Process) (signal : Nat) : Machine :=
  let later : Process := { p with moment := max p.moment m.now }
  if !p.isAlive || signal == 0 then m
  else
    let p := if signal == 18 then { p with isStopped := false } else p
    match p.handlingOf signal with
    | .ignored => m.put p
    | .caught =>
      if p.pending.contains signal then m.put p
      else m.put { p with pending := p.pending ++ [signal] }
    | .standard =>
      if idleSignals.contains signal then m.put p
      else if stopSignals.contains signal then m.put { p with isStopped := true }
      else m.finish { later with isStopped := false } (.killed signal)

def endedChild (m : Machine) (p : Process) (child : Option Nat) : Option (Nat × ProcessEnd) :=
  m.processes.findSome? fun q =>
    if q.parent == p.id && child.all (· == q.id) then q.ended.map fun how => (q.id, how) else none

def hasChild (m : Machine) (p : Process) (child : Option Nat) : Bool :=
  m.processes.any fun q => q.parent == p.id && child.all (· == q.id)

def isReady (m : Machine) (p : Process) : Bool :=
  p.isAlive && !p.isStopped &&
    match p.act with
    | .read stream _ _ _ =>
      match m.channelOf p stream with
      | some (_, .reading pipe) => (m.inPipe pipe).size != 0 || !m.hasWriters pipe
      | _ => true
    | .write stream _ _ =>
      match m.channelOf p stream with
      | some (_, .writing pipe) => (m.inPipe pipe).size < pipeSize || !m.hasReaders pipe
      | _ => true
    | .await child mayWake _ =>
      (m.endedChild p child).isSome || !m.hasChild p child || (mayWake && !p.pending.isEmpty)
    | _ => true

/-! ## Requests -/

def streamNamed (path : FilePath) : Option Nat :=
  match path.text with
  | "/dev/stdin" => some 0
  | "/dev/stdout" => some 1
  | "/dev/stderr" => some 2
  | text =>
    ["/dev/fd/", "/proc/self/fd/"].findSome? fun directory =>
      if text.startsWith directory then (text.drop directory.length).toNat? else none

/-- Splits what is read off bytes: up to so many, and none behind a given one. -/
def portion (most : Nat) (stop : Option UInt8) (bytes : List UInt8) : List UInt8 :=
  match stop with
  | none => bytes.take most
  | some last =>
    let front := (bytes.take most).takeWhile (· != last)
    bytes.take (min most (front.length + 1))

def readFrom (m : Machine) (p : Process) (stream most : Nat) (stop : Option UInt8) :
    Except SystemError (List UInt8) × Machine :=
  match m.channelOf p stream with
  | some (_, .device .null) => (.ok [], m)
  | some (_, .device _) => (.ok (List.replicate most 0), m)
  | some (_, .reading pipe) =>
    let content := (m.inPipe pipe).ready
    let found := portion most stop content.front
    (.ok found, m.fillPipe pipe (content.drop found.length))
  | some (number, .file at_ offset appends true writes) =>
    let m := m.settled
    match m.host.files.get? at_ with
    | some (.file _ bytes) =>
      let found := portion most stop (bytes.drop offset)
      (.ok found, m.setChannel number (.file at_ (offset + found.length) appends true writes))
    | _ => (.ok [], m)
  | some (_, .directory) => (.error .isDirectory, m)
  | _ => (.error .badStream, m)

/-- Bytes with others in place of those from an offset on; zero bytes fill a gap. -/
def overlay (bytes : List UInt8) (offset : Nat) (others : List UInt8) : List UInt8 :=
  bytes.take offset ++ List.replicate (offset - bytes.length) 0 ++ others
    ++ bytes.drop (offset + others.length)

def draftOf (m : Machine) (at_ : Location) : Option Draft :=
  match m.drafts.lookup at_ with
  | some draft => some draft
  | none =>
    match m.host.files.get? at_ with
    | some (.file _ bytes) => some ⟨bytes.length, []⟩
    | _ => none

def writeTo (m : Machine) (channel : Option (Nat × Channel)) (bytes : List UInt8) :
    Except SystemError Unit × Machine :=
  match channel with
  | some (_, .sink sink) => (.ok (), { m with written := ⟨m.now, sink, bytes⟩ :: m.written })
  | some (_, .device .full) => (.error .noSpace, m)
  | some (_, .device _) => (.ok (), m)
  | some (number, .file at_ offset appends reads true) =>
    match m.draftOf at_ with
    | none => (.ok (), m)
    | some draft =>
      let place := if appends then draft.length else offset
      let stop := place + bytes.length
      let m := m.setChannel number (.file at_ stop appends reads true)
      if place == draft.length then
        let drafts := m.drafts.filter (·.1 != at_)
        (.ok (), { m with drafts := (at_, ⟨stop, bytes :: draft.back⟩) :: drafts })
      else
        let m := m.settled
        match m.host.files.get? at_ with
        | some (.file _ before) =>
          (.ok (), { m with host := m.host.store at_ (overlay before place bytes) })
        | _ => (.ok (), m)
  | _ => (.error .badStream, m)

/-- What a file at a path is connected to when it is opened. The channel of a stream that the path
names is shared, unless it is a file, which is opened anew. -/
def opened (m : Machine) (p : Process) (opening : Opening) (path : FilePath) :
    Except SystemError (Channel × Option Nat × Machine) :=
  let m := if opening == .append then m else m.settled
  let host := m.hostOf p
  let other := (streamNamed path).map (m.channelOf p)
  let path := match other with
    | some (some (_, .file at_ _ _ _ _)) => Host.pathOf at_
    | _ => path
  let fresh (channel : Channel) (m : Machine) :
      Except SystemError (Channel × Option Nat × Machine) := .ok (channel, none, m)
  match other with
  | some none => .error .noSuchEntry
  | some (some (_, .directory)) => .error .isDirectory
  | some (some (number, .sink sink)) => .ok (.sink sink, some number, m)
  | some (some (number, .device device)) => .ok (.device device, some number, m)
  | some (some (number, .reading pipe)) => .ok (.reading pipe, some number, m)
  | some (some (number, .writing pipe)) => .ok (.writing pipe, some number, m)
  | _ =>
    match opening with
    | .read =>
      match host.find path with
      | .error cause => .error cause
      | .ok (at_, entry) =>
        if !(entry.permissions?.all host.caller.mayRead) then .error .permissionDenied
        else
          match entry with
          | .directory _ => fresh .directory m
          | .device _ device => fresh (.device device) m
          | .file _ _ => fresh (.file at_ 0 false true false) m
          | _ => fresh (.device .null) m
    | opening =>
      match host.placeOf path (0o666 &&& (0o777 - p.umask % 512)) with
      | .error cause => .error cause
      | .ok none =>
        match host.find path with
        | .ok (_, .device _ device) => fresh (.device device) m
        | _ => fresh (.device .null) m
      | .ok (some (at_, permissions)) =>
        let isThere := (host.files.get? at_).isSome
        let empties := opening == .write || opening == .overwrite
        let emptied := host.files.put at_ (.file permissions [])
        let m := if isThere && !empties then m
          else { m with host := m.host.changed emptied (.write (Host.pathOf at_) []) }
        fresh (.file at_ 0 (opening == .append) (opening == .readWrite) true) m

def located (p : Process) : Change → Change :=
  let whole (path : FilePath) : FilePath := (Host.pathOf p.directory).join path
  fun
  | .makeDirectory path => .makeDirectory (whole path)
  | .write path bytes => .write (whole path) bytes
  | .rename source target => .rename (whole source) (whole target)
  | .remove path => .remove (whole path)
  | .removeDirectory path => .removeDirectory (whole path)
  | .permit path mode => .permit (whole path) mode
  | .link target path => .link target (whole path)

/-- A change as a process wants it. An empty path is nowhere. -/
def changedBy (m : Machine) (p : Process) (change : Change) : Except SystemError Machine :=
  let isNowhere := match change with
    | .makeDirectory path | .write path _ | .remove path | .removeDirectory path
    | .permit path _ | .link _ path => path.isEmpty
    | .rename source target => source.isEmpty || target.isEmpty
  if isNowhere then .error .noSuchEntry
  else
    let m := m.settled
    ((m.hostOf p).apply (located p change)).map m.withHost

def viewOf (m : Machine) (p : Process) : View where
  hostNow := Thunk.mk fun _ => { m.hostNow with directory := p.directory }
  processId := p.id
  parentId := p.parent
  umask := p.umask
  ignored := p.handling.filterMap fun h => if h.2 == .ignored then some h.1 else none
  channel? stream := (m.channelOf p stream).map (·.2)
  ended? child := (m.endedChild p (some child)).map (·.2)

def sent (m : Machine) (target : Option Nat) (signal : Nat) : Bool × Machine :=
  let reached := m.processes.filter fun p => target.all (· == p.id)
  (!reached.isEmpty, reached.foldl (fun m p =>
    match m.processes.find? (·.id == p.id) with
    | some p => m.signalled p signal
    | none => m) m)

def goOn (m : Machine) (p : Process) (act : Act) : Machine := m.put { p with act := act }

/-- How long it takes to read or write so many bytes. -/
def transferTime (bytes : List UInt8) : Nat := 2 + bytes.length / 64

/-- How long it takes until a new process does something. -/
def forkTime : Nat := 150

def step (m : Machine) (p : Process) : Machine :=
  let p := { p with moment := max p.moment m.now }
  let m := { m with now := p.moment }
  match p.act with
  | .exit status => m.finish p (.exited (status % 256))
  | .die signal => m.finish p (.killed signal)
  | .spend micros next => m.goOn { p with moment := p.moment + micros } (next ())
  | .read stream most stop next =>
    let (found, m) := m.readFrom p stream most stop
    let p := { p with moment := p.moment + transferTime (found.toOption.getD []) }
    m.goOn p (next found)
  | .write stream bytes next =>
    let p := { p with moment := p.moment + transferTime bytes }
    match m.channelOf p stream with
    | some (_, .writing pipe) =>
      if m.hasReaders pipe then
        (m.fillPipe pipe ((m.inPipe pipe).add bytes)).goOn p (next (.ok ()))
      else
        match p.handlingOf 13 with
        | .standard => m.finish p (.killed 13)
        | .ignored => m.goOn p (next (.error .brokenPipe))
        | .caught => m.goOn { p with pending := p.pending ++ [13] } (next (.error .brokenPipe))
    | channel =>
      let (result, m) := m.writeTo channel bytes
      m.goOn p (next result)
  | .connect stream opening path next =>
    match m.opened p opening path with
    | .error cause => m.goOn p (next (.error cause))
    | .ok (_, some number, m) => (m.goOn (p.connected stream number) (next (.ok ()))).sweep
    | .ok (channel, none, m) =>
      let number := m.fresh
      let m := { m with channels := (number, channel) :: m.channels, fresh := number + 1 }
      (m.goOn (p.connected stream number) (next (.ok ()))).sweep
  | .copy source target next =>
    match p.streams.lookup source with
    | some number => (m.goOn (p.connected target number) (next true)).sweep
    | none => m.goOn p (next false)
  | .close stream next => (m.goOn (p.disconnected stream) (next ())).sweep
  | .pipe next =>
    let pipe := m.fresh
    let stream := p.freeStream
    let m := { m with
      pipes := (pipe, .empty) :: m.pipes
      channels := (pipe + 1, .reading pipe) :: (pipe + 2, .writing pipe) :: m.channels
      fresh := pipe + 3 }
    m.goOn ((p.connected stream (pipe + 1)).connected (stream + 1) (pipe + 2))
      (next stream (stream + 1))
  | .fork child next =>
    let id := m.fresh
    let later := p.moment + forkTime
    let started : Process :=
      { p with id := id, parent := p.id, moment := later, act := child (), pending := [] }
    let m := { m with processes := m.processes ++ [started], fresh := id + 1 }
    m.goOn { p with moment := p.moment + forkTime / 3 } (next id)
  | .await child _ next =>
    match m.endedChild p child with
    | some (id, how) =>
      let m := { m with processes := m.processes.filter (·.id != id) }
      m.goOn p (next (.ended id how))
    | none =>
      if m.hasChild p child then m.goOn p (next .interrupted) else m.goOn p (next .nobody)
  | .send target signal next =>
    let (found, m) := m.sent target signal
    match m.processes.find? (·.id == p.id) with
    | some q => if q.isAlive then m.goOn { q with moment := p.moment } (next found) else m
    | none => m
  | .handle signal handling next =>
    let others := p.handling.filter (·.1 != signal)
    m.goOn { p with handling := (signal, handling) :: others } (next ())
  | .caught next => m.goOn { p with pending := [] } (next p.pending)
  | .look next => m.goOn p (next (m.viewOf p))
  | .change change next =>
    match m.changedBy p change with
    | .ok m => m.goOn p (next (.ok ()))
    | .error cause => m.goOn p (next (.error cause))
  | .enter directory next => m.goOn { p with directory := directory } (next ())
  | .mask umask next => m.goOn { p with umask := umask } (next ())
  | .turn next =>
    let p := { p with
      streams := p.streams.filter (·.1 < 10)
      handling := p.handling.filter (·.2 == .ignored)
      pending := [] }
    (m.goOn p (next ())).sweep

/-- The process that takes the next step: of those that can, the one whose moment comes first. -/
def next? (m : Machine) : Option Process :=
  m.processes.foldl (fun best p =>
    if !m.isReady p then best
    else
      match best with
      | none => some p
      | some q => if max p.moment m.now < max q.moment m.now then some p else some q) none

def first? (m : Machine) : Option Process := m.processes.find? (·.id == firstProcess)

/-- The first process has ended and nobody can write to the sinks any more. -/
def isDone (m : Machine) : Bool := m.closings.length == 2 && !(m.first?.any Process.isAlive)

/-- Lets the processes take up to so many steps, up to a moment. -/
def runUntil (horizon : Nat) : (steps : Nat) → Machine → Machine
  | 0, m => m
  | steps + 1, m =>
    if m.isDone then m
    else
      match m.next? with
      | none => m
      | some p => if horizon < max p.moment m.now then m else runUntil horizon steps (m.step p)

/-! ## What is left of a run -/

def ending? (m : Machine) : Option (ProcessEnd × Nat) :=
  m.first?.bind fun p => p.ended.map fun how => (how, p.moment)

def writtenTo (m : Machine) (sink : Sink) (deadline : Nat) : List UInt8 :=
  (m.written.reverse.filter fun chunk =>
    chunk.sink == sink && chunk.moment < deadline).flatMap (·.bytes)

def closedAt? (m : Machine) (sink : Sink) : Option Nat := m.closings.lookup sink

end Machine

end TranscodingEngines
