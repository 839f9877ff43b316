import RelaySql.Sql.Statement

/-!
# Trace — what happened while fields were resolved

A trace lists the statements that were handed to data sources and the messages that were logged, in
the order they happened.
-/

namespace RelaySql

/-- The weight of a logged message, heaviest first. -/
inductive Level where
  | error
  | warn
  | info
  | debug
  | trace
deriving DecidableEq, Repr, Inhabited

namespace Level

/-- All levels, heaviest first. -/
def all : List Level := [error, warn, info, debug, trace]

/-- The name of a level in a log line. -/
def name : Level → String
  | error => "ERROR"
  | warn => "WARN"
  | info => "INFO"
  | debug => "DEBUG"
  | trace => "TRACE"

/-- The level of a name, whatever the case of its ASCII letters. -/
def ofName? (s : String) : Option Level :=
  all.find? fun l => l.name.toList = s.toList.map Char.toUpper

end Level

/-- Something that happened. -/
inductive Event where
  /-- A statement was handed to the source of this name. -/
  | executed (source : String) (statement : Statement)
  | logged (level : Level) (text : String)
deriving DecidableEq, Repr

/-- What happened, in order. -/
abbrev Trace := List Event

namespace Trace

/-- The statements handed to sources, each with the name of its source. -/
def executions (t : Trace) : List (String × Statement) :=
  t.filterMap fun
    | .executed source statement => some (source, statement)
    | .logged .. => none

/-- The statements handed to one source. -/
def statements (t : Trace) (source : String) : List Statement :=
  t.executions.filterMap fun (name, statement) => if name = source then some statement else none

/-- The messages logged, each behind its level. -/
def lines (t : Trace) : List String :=
  t.filterMap fun
    | .executed .. => none
    | .logged level text => some (level.name ++ " " ++ text)

theorem executions_append (t u : Trace) :
    executions (t ++ u) = executions t ++ executions u := List.filterMap_append

end Trace

end RelaySql
