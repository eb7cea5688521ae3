import TranscodingEngines.Host.Task
import TranscodingEngines.Probe.Run

/-!
# What the system makes of a call

Whoever watches a program knows little of it: whether it could be loaded and, as time goes on, how
and when it ended, what it wrote by some moment, when its streams were closed, and what it did to
the files. A system is anything that tells this of every call.
-/

set_option autoImplicit false

namespace TranscodingEngines

/-- How programs are loaded and started, and how they fare. Moments are microseconds since the
start; a program under way is known up to the moment that it was advanced to. -/
structure System where
  Loaded : Type
  UnderWay : Type
  load : Host → Call → Except SystemError Loaded
  start : Host → Loaded → UnderWay
  advance : (moment : Nat) → UnderWay → UnderWay
  ending? : UnderWay → Option (ProcessEnd × Nat)
  writtenTo : UnderWay → Sink → (moment : Nat) → List UInt8
  closedAt? : UnderWay → Sink → Option Nat
  hostNow : UnderWay → Host

end TranscodingEngines
