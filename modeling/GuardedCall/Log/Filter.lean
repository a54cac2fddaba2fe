-- Which events are kept: a filter gives a level to the targets that start
-- with some text, and another level to all others.
import GuardedCall.Log.Event

namespace GuardedCall

/-- A level for the targets that start with a text. -/
structure Directive where
  start : String
  level : LogLevel
deriving DecidableEq

namespace Directive

def covers (d : Directive) (target : String) : Bool := d.start.toList.isPrefixOf target.toList

end Directive

/-- A filter of events by their targets. -/
structure LogFilter where
  directives : List Directive
  /-- The level of the targets that no directive covers. -/
  fallback : LogLevel

namespace LogFilter

/-- The filter with one more directive, which replaces one with the same text. -/
def withTarget (f : LogFilter) (start : String) (level : LogLevel) : LogFilter :=
  { f with directives := ⟨start, level⟩ :: f.directives.filter (·.start ≠ start) }

/-- The directive that covers a target with the longest text, of some. -/
def longest (target : String) : List Directive → Option Directive
  | [] => none
  | d :: rest =>
    match longest target rest with
    | some e => if d.covers target && e.start.length < d.start.length then some d else some e
    | none => if d.covers target then some d else none

/-- The most verbose level that a target may log at. -/
def levelFor (f : LogFilter) (target : String) : LogLevel :=
  match longest target f.directives with
  | some d => d.level
  | none => f.fallback

/-- The filter keeps events of a target and a level. -/
def enables (f : LogFilter) (target : String) (level : LogLevel) : Bool :=
  level.rank ≤ (f.levelFor target).rank

end LogFilter

/-- The targets of the parts of this library. -/
def frameworkTargets : List String :=
  ["typeadapt_adapter", "typeadapt_schema", "typeadapt_method", "typeadapt_router",
    "typeadapt_client"]

/-- The filter for a program: its own events and those of the library up to a
level, all others up to a warning at most. -/
def logTargets (level : LogLevel) (app : String) : LogFilter :=
  (frameworkTargets ++ [app]).foldl (fun f target => f.withTarget target level)
    ⟨[], level.quieter .warn⟩

end GuardedCall
