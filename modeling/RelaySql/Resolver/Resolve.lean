import RelaySql.Resolver.Compose
import RelaySql.Trace

/-!
# Resolver — resolving a field

A field is resolved by one statement: composed, handed to the source, and its rows shaped into the
value of the field.  A nested field is resolved for a whole batch of parents by one statement too,
and its rows are shared out by the key of the parent they belong to.
-/

namespace RelaySql

/-- A computation that leaves a trace and may fail; a failure keeps the trace. -/
abbrev Run (α : Type) := ExceptT Fault (StateM Trace) α

namespace Run

/-- Adds to the trace. -/
def note (e : Event) : Run Unit := modify (· ++ [e])

end Run

namespace Resolver

variable {C : Type}

/-- Hands a statement to the source. -/
def execute (r : Resolver C) (s : Statement) : Run (List Row) := do
  Run.note (.logged .debug ("Resolving " ++ r.table ++ ": " ++ Text.oneLine s.sql))
  let history := Trace.statements (← get) r.source.name
  Run.note (.executed r.source.name s)
  match r.source.answer history s with
  | .ok rows => return rows
  | .error fault =>
    Run.note (.logged .warn
      ("Data source failed resolving " ++ r.table ++ ": " ++ fault.message))
    throw (.source fault)

/-- Resolves a field at top level. -/
def resolve (r : Resolver C) (args : Arguments) (context : C) : Run Resolution := do
  let query ← r.compose args context none
  let rows ← r.execute query.statement
  query.finish rows

/-- The key of the parent that a row of `table` belongs to. -/
def parentKey (table : String) (row : Row) : Except Fault String :=
  match Fields.get? row parentKeyColumn with
  | none => .error (.composition (.noParentKey table))
  | some v => keyText v

/-- Puts a row of `table` at the end of its parent's group. -/
def share (table : String) (groups : Fields (List Row)) (row : Row) :
    Except Fault (Fields (List Row)) := do
  let key ← parentKey table row
  match groups.get? key with
  | none => .error (.composition (.unknownParent key table))
  | some group => .ok (groups.insert key (group ++ [row]))

/-- The rows of each key's parent, in order. -/
def groupRows (table : String) (keys : Fields String) (rows : List Row) :
    Except Fault (Fields (List Row)) :=
  rows.foldlM (share table) (keys.mapValues fun _ => [])

/-- The value of each group. -/
def finishGroups (q : ComposedQuery) (groups : Fields (List Row)) :
    Except Fault (Fields Resolution) :=
  groups.mapM fun (key, rows) =>
    if rows = [] then .ok (key, q.empty) else (q.finish rows).map (key, ·)

/-- Resolves a nested field for a batch of parents: the value for each key, in the order of the
batch.  Without parents no statement is executed. -/
def resolveNested (r : Resolver C) (args : Arguments) (context : C) (parents : ParentBatch) :
    Run (Fields Resolution) := do
  let query ← r.compose args context (some parents)
  let keys ← parents.distinctKeys
  if keys = [] then return []
  else
    let rows ← r.execute query.statement
    let groups ← groupRows r.table keys rows
    finishGroups query groups

end Resolver

end RelaySql
