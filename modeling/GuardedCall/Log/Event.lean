-- What the library logs: events with a level, a target and named fields.
namespace GuardedCall

/-- How important an event is, from the most to the least important. -/
inductive LogLevel where
  | error
  | warn
  | info
  | debug
  | trace
deriving DecidableEq

namespace LogLevel

/-- The more verbose a level, the larger its rank. -/
def rank : LogLevel → Nat
  | .error => 0
  | .warn => 1
  | .info => 2
  | .debug => 3
  | .trace => 4

def byName : List (String × LogLevel) :=
  [("error", .error), ("warn", .warn), ("info", .info), ("debug", .debug), ("trace", .trace)]

def name : LogLevel → String
  | .error => "error"
  | .warn => "warn"
  | .info => "info"
  | .debug => "debug"
  | .trace => "trace"

def ofName? (name : String) : Option LogLevel := byName.lookup name

/-- The quieter of two levels. -/
def quieter (a b : LogLevel) : LogLevel := if a.rank ≤ b.rank then a else b

end LogLevel

/-- One event. Every field is a text. -/
structure LogEvent where
  level : LogLevel
  /-- The part of the library that logs. -/
  target : String
  message : String
  fields : List (String × String)
deriving DecidableEq

end GuardedCall
