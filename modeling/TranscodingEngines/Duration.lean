/-!
# Spans of time

A span is a number of nanoseconds. It is written in the largest of the units s, ms, µs and ns that
it fills at least once, with as many decimal places as it needs.
-/

set_option autoImplicit false

namespace TranscodingEngines

structure Duration where
  nanos : Nat
  deriving DecidableEq, Repr

namespace Duration

def ofSecs (n : Nat) : Duration := ⟨n * 1000000000⟩

def ofMillis (n : Nat) : Duration := ⟨n * 1000000⟩

def ofMicros (n : Nat) : Duration := ⟨n * 1000⟩

/-- `n` in decimal digits, at least `width` of them. -/
def padZeros (width n : Nat) : String :=
  let digits := toString n
  String.ofList (List.replicate (width - digits.length) '0') ++ digits

/-- A fraction of `places` decimal digits behind a point, without zeros at its end; nothing for
the fraction zero. -/
def fraction (places n : Nat) : String :=
  let digits := (padZeros places n).toList.reverse.dropWhile (· == '0')
  if digits.isEmpty then "" else "." ++ String.ofList digits.reverse

/-- A span counted in a unit of ten to the `places` nanoseconds. -/
def inUnit (places : Nat) (unit : String) (nanos : Nat) : String :=
  toString (nanos / Nat.pow 10 places) ++ fraction places (nanos % Nat.pow 10 places) ++ unit

def text (d : Duration) : String :=
  if 1000000000 ≤ d.nanos then inUnit 9 "s" d.nanos
  else if 1000000 ≤ d.nanos then inUnit 6 "ms" d.nanos
  else if 1000 ≤ d.nanos then inUnit 3 "µs" d.nanos
  else inUnit 0 "ns" d.nanos

end Duration

end TranscodingEngines
