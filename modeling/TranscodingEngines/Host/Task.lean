import TranscodingEngines.Host.Program

/-!
# Tasks

A running program is a sequence of requests to the machine: it reads and writes, waits, starts
others, looks at files and changes them. With each request stands what the program does with the
answer, so that the machine may let other programs run in between. A task is a part of a program
that comes to a value; tasks are put together one after the other.
-/

set_option autoImplicit false

namespace TranscodingEngines

inductive Sink where
  | out
  | err
  deriving DecidableEq, Repr

inductive Channel where
  | sink (sink : Sink)
  | device (device : Device)
  | reading (pipe : Nat)
  | writing (pipe : Nat)
  | file (at_ : Location) (offset : Nat) (appends reads writes : Bool)
  | directory
  deriving DecidableEq, Repr

inductive Opening where
  | read
  | write
  | overwrite
  | append
  | readWrite
  deriving DecidableEq, Repr

inductive Handling where
  | standard
  | ignored
  | caught
  deriving DecidableEq, Repr

inductive ProcessEnd where
  | exited (status : Nat)
  | killed (signal : Nat)
  deriving DecidableEq, Repr

inductive Awaited where
  | ended (processId : Nat) (how : ProcessEnd)
  | interrupted
  | nobody
  deriving DecidableEq, Repr

/-- What a process sees of the machine. The working directory of the host is its own. -/
structure View where
  /-- The host, which is put together only when someone looks at it. -/
  hostNow : Thunk Host
  processId : Nat
  parentId : Nat
  umask : Nat
  ignored : List Nat
  channel? : Nat → Option Channel
  ended? : Nat → Option ProcessEnd

def View.host (v : View) : Host := v.hostNow.get

/-- A running program: its next request, with what it does with the answer. -/
inductive Act where
  | exit (status : Nat)
  | die (signal : Nat)
  | spend (micros : Nat) (next : Unit → Act)
  /-- Reads up to so many bytes from a stream, and none behind a given one. Nothing is read at the
  end of what there is. -/
  | read (stream most : Nat) (stop : Option UInt8) (next : Except SystemError (List UInt8) → Act)
  | write (stream : Nat) (bytes : List UInt8) (next : Except SystemError Unit → Act)
  | connect (stream : Nat) (opening : Opening) (path : FilePath)
      (next : Except SystemError Unit → Act)
  | copy (source target : Nat) (next : Bool → Act)
  | close (stream : Nat) (next : Unit → Act)
  /-- Makes a pipe, and connects new streams to its reading and its writing end. -/
  | pipe (next : Nat → Nat → Act)
  | fork (child : Unit → Act) (next : Nat → Act)
  | await (child : Option Nat) (mayWake : Bool) (next : Awaited → Act)
  | send (target : Option Nat) (signal : Nat) (next : Bool → Act)
  | handle (signal : Nat) (handling : Handling) (next : Unit → Act)
  | caught (next : List Nat → Act)
  | look (next : View → Act)
  | change (change : Change) (next : Except SystemError Unit → Act)
  | enter (directory : Location) (next : Unit → Act)
  | mask (umask : Nat) (next : Unit → Act)
  /-- Gives way to another program, which is not told of signals and gets only the streams with
  numbers of one digit. -/
  | turn (next : Unit → Act)

def Task (α : Type) : Type := (α → Act) → Act

namespace Task

instance : Monad Task where
  pure a := fun next => next a
  bind task f := fun next => task fun a => f a next

instance {α : Type} : Inhabited (Task α) := ⟨fun _ => .exit 0⟩

def exit {α : Type} (status : Nat) : Task α := fun _ => .exit status

def die {α : Type} (signal : Nat) : Task α := fun _ => .die signal

def spend (micros : Nat) : Task Unit := fun next => .spend micros next

def read (stream most : Nat) (stop : Option UInt8) : Task (Except SystemError (List UInt8)) :=
  fun next => .read stream most stop next

def write (stream : Nat) (bytes : List UInt8) : Task (Except SystemError Unit) :=
  if bytes.isEmpty then pure (.ok ()) else fun next => .write stream bytes next

def connect (stream : Nat) (opening : Opening) (path : FilePath) :
    Task (Except SystemError Unit) :=
  fun next => .connect stream opening path next

def copy (source target : Nat) : Task Bool := fun next => .copy source target next

def close (stream : Nat) : Task Unit := fun next => .close stream next

def pipe : Task (Nat × Nat) := fun next => .pipe fun reading writing => next (reading, writing)

def fork (child : Unit → Act) : Task Nat := fun next => .fork child next

def await (child : Option Nat) (mayWake : Bool) : Task Awaited :=
  fun next => .await child mayWake next

def send (target : Option Nat) (signal : Nat) : Task Bool := fun next => .send target signal next

def handle (signal : Nat) (handling : Handling) : Task Unit :=
  fun next => .handle signal handling next

def caught : Task (List Nat) := fun next => .caught next

def look : Task View := fun next => .look next

def change (c : Change) : Task (Except SystemError Unit) := fun next => .change c next

def enter (directory : Location) : Task Unit := fun next => .enter directory next

/-- Sets the bits that new files do not get. -/
def mask (umask : Nat) : Task Unit := fun next => .mask umask next

def turn : Task Unit := fun next => .turn next

end Task

end TranscodingEngines
