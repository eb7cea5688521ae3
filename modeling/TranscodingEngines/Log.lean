/-!
# Log events

What happens while engines are verified and matched is reported as events. An event has a level and
a message; a reader asks for all events at least as severe as some level.
-/

set_option autoImplicit false

namespace TranscodingEngines

namespace Log

inductive Level where
  | error
  | warn
  | info
  | debug
  | trace
  deriving DecidableEq, Repr

def Level.label : Level → String
  | .error => "ERROR"
  | .warn => "WARN"
  | .info => "INFO"
  | .debug => "DEBUG"
  | .trace => "TRACE"

/-- The place of a level, zero for the most severe one. -/
def Level.rank : Level → Nat
  | .error => 0
  | .warn => 1
  | .info => 2
  | .debug => 3
  | .trace => 4

structure Event where
  level : Level
  message : String
  deriving DecidableEq, Repr

/-- The event as a line: level, blank, message. -/
def Event.line (e : Event) : String := e.level.label ++ " " ++ e.message

def upTo (limit : Level) (events : List Event) : List Event :=
  events.filter fun e => e.level.rank ≤ limit.rank

end Log

end TranscodingEngines
