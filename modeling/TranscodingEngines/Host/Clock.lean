import TranscodingEngines.Duration

/-!
# Clocks

The wall clock gives dates and times for people, and the stamp of a backup is one of them in
fourteen digits. The steady clock counts from the start of the machine in whole seconds and
nanoseconds; the seconds are a signed 64-bit number, so there is a last moment it can name, and a
deadline after that moment does not exist.
-/

set_option autoImplicit false

namespace TranscodingEngines

structure LocalTime where
  year : Nat
  month : Nat
  day : Nat
  hour : Nat
  minute : Nat
  second : Nat
  deriving DecidableEq, Repr

namespace LocalTime

def stamp (t : LocalTime) : String :=
  Duration.padZeros 4 t.year ++ Duration.padZeros 2 t.month ++ Duration.padZeros 2 t.day
    ++ Duration.padZeros 2 t.hour ++ Duration.padZeros 2 t.minute ++ Duration.padZeros 2 t.second

def date (t : LocalTime) : String :=
  Duration.padZeros 4 t.year ++ "-" ++ Duration.padZeros 2 t.month ++ "-"
    ++ Duration.padZeros 2 t.day

def timeOfDay (t : LocalTime) : String :=
  Duration.padZeros 2 t.hour ++ ":" ++ Duration.padZeros 2 t.minute ++ ":"
    ++ Duration.padZeros 2 t.second

def text (t : LocalTime) : String := t.date ++ " " ++ t.timeOfDay

def logText (t : LocalTime) : String := t.date ++ "T" ++ t.timeOfDay ++ ".000000Z"

end LocalTime

/-- A moment on the steady clock, in nanoseconds since the start of the machine. -/
structure Instant where
  nanos : Nat
  deriving DecidableEq, Repr

namespace Instant

def nanosPerSec : Nat := 1000000000

def lastSec : Nat := 9223372036854775807

def secs (i : Instant) : Nat := i.nanos / nanosPerSec

def isNameable (i : Instant) : Bool := i.secs ≤ lastSec

def later (i : Instant) (d : Duration) : Instant := ⟨d.nanos + i.nanos⟩

/-- The moment a span later, if the clock can name it. -/
def after? (i : Instant) (d : Duration) : Option Instant :=
  if (i.later d).isNameable then some (i.later d) else none

def latest (i j : Instant) : Instant := if i.nanos ≤ j.nanos then j else i

def since (i start : Instant) : Duration := ⟨i.nanos - start.nanos⟩

end Instant

/-- The least time granted for collecting output after the end of a program. -/
def drainGrace : Duration := .ofMillis 200

end TranscodingEngines
