import RelaySql.Sql.Literal
import RelaySql.Sql.Statement

/-!
# Source — where rows come from

A data source answers statements with rows.  Its answer may depend on the statements it was given
before, so the history is an argument of the answer and a source has no state of its own.

* `Source.ofTables` holds the rows of its tables in memory.  It does not evaluate conditions: it
  skips and takes as the statement says, for every parent key alone when the statement is nested.
-/

namespace RelaySql

/-- A row is an object. -/
def Row.ofJson : Json → Except SourceFault Row
  | .object columns => .ok columns
  | v => .error (.rowDecode v.text)

/-- A place that answers statements. -/
structure Source where
  name : String
  /-- The answer to a statement after the statements of the history. -/
  answer : (history : List Statement) → Statement → Except SourceFault (List Row)

namespace Source

/-- A source that fails whenever it is asked. -/
def failing (name : String) (fault : SourceFault) : Source :=
  ⟨name, fun _ _ => .error fault⟩

/-- A source with an answer prepared for each of the first statements; later ones have no rows. -/
def ofAnswers (name : String) (answers : List (Except SourceFault (List Row))) : Source :=
  ⟨name, fun history _ => (answers[history.length]?).getD (.ok [])⟩

/-- The rows a statement skips to and takes. -/
def page (s : Statement) (rows : List α) : List α :=
  let rows := rows.drop (s.offset.getD 0)
  match s.limit with
  | none => rows
  | some n => rows.take n

/-- The rows with the size of their set and, when they belong to a parent, their places in it. -/
def counted (nested : Bool) (rows : List Row) : List Row :=
  rows.zipIdx.map fun (row, place) =>
    let row := Fields.insert row totalColumn (.ofNat rows.length)
    if nested then Fields.insert row offsetColumn (.ofNat place) else row

/-- The rows whose parent's key is written as this literal. -/
def childrenOf (rows : List Row) (key : String) : List Row :=
  rows.filter fun row =>
    match (Fields.get? row parentKeyColumn).map Sql.literal with
    | some (.ok l) => l = key
    | _ => false

/-- The answer of rows in memory. -/
def select (totals : Bool) (rows : List Row) (s : Statement) : List Row :=
  let part (nested : Bool) (rows : List Row) : List Row :=
    page s (if s.countTotal && totals then counted nested rows else rows)
  match s.join with
  | none => part false rows
  | some join => join.parentKeys.flatMap fun key => part true (childrenOf rows key)

/-- A source that holds the rows of its tables in memory, and tells the size of a set of rows if it
reports totals. -/
def ofTables (name : String) (tables : Fields (List Row)) (totals : Bool) : Source :=
  ⟨name, fun _ s => .ok (select totals ((tables.get? s.table).getD []) s)⟩

end Source

end RelaySql
