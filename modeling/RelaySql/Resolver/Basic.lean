import RelaySql.Arguments
import RelaySql.Source
import RelaySql.Text.Blank

/-!
# Resolver — how a field finds its rows

A resolver names the table of a field, the order of its rows, whether they are served in pages,
and the source that answers its statements.  Two functions of the arguments may contribute
conditions: one joins the rows to those of a parent, the other filters them.

A resolver is drafted part by part and then built, which checks the parts in a fixed order: a table
must be named, pages need an order, no column of the order is blank, and there must be a source.
-/

namespace RelaySql

/-- The condition that joins a child's rows to its parent's: of the names of both tables, the
arguments and the context of the request. -/
abbrev JoinCondition (C : Type) :=
  (parent child : String) → Arguments → C → Except Fault String

/-- The condition that filters the rows of a table, if the arguments ask for one. -/
abbrev FilterCondition (C : Type) := (table : String) → Arguments → C → Except Fault (Option String)

/-- How a field finds its rows. -/
structure Resolver (C : Type) where
  table : String
  join : Option (JoinCondition C)
  filter : Option (FilterCondition C)
  orderBy : List OrderColumn
  paginated : Bool
  source : Source

/-- A resolver of which parts may be missing. -/
structure Draft (C : Type) where
  table : Option String := none
  join : Option (JoinCondition C) := none
  filter : Option (FilterCondition C) := none
  orderBy : List OrderColumn := []
  paginated : Bool := false
  source : Option Source := none

variable {C : Type}

namespace Draft

/-- A part that a draft is given. -/
inductive Part (C : Type) where
  | table (name : String)
  | join (condition : JoinCondition C)
  | filter (condition : FilterCondition C)
  | orderBy (column : OrderColumn)
  | paginated (paginated : Bool)
  | source (source : Source)

/-- Adds a part: a column goes to the end of the order, and any other part replaces the one given
before. -/
def add (d : Draft C) : Part C → Draft C
  | .table name => { d with table := some name }
  | .join condition => { d with join := some condition }
  | .filter condition => { d with filter := some condition }
  | .orderBy column => { d with orderBy := d.orderBy ++ [column] }
  | .paginated paginated => { d with paginated }
  | .source source => { d with source := some source }

/-- The draft that is given these parts one after another. -/
def ofParts (parts : List (Part C)) : Draft C := parts.foldl add {}

/-- The resolver of a draft, or the first of its faults. -/
def build (d : Draft C) : Except Fault (Resolver C) :=
  match d.table.filter (!Text.isBlank ·) with
  | none => .error (.resolver .noTable)
  | some table =>
    if d.paginated ∧ d.orderBy = [] then .error (.resolver (.unorderedPages table))
    else match d.orderBy.find? fun o => Text.isBlank o.column with
      | some column => .error (.resolver (.blankOrderColumn table column))
      | none => match d.source with
        | none => .error (.resolver (.noSource table))
        | some source => .ok ⟨table, d.join, d.filter, d.orderBy, d.paginated, source⟩

end Draft

namespace Resolver

/-- The resolver shown in diagnostics; of its conditions only their presence. -/
def debug (r : Resolver C) : String :=
  "ResolverConfig \x7b table: " ++ Text.quoted r.table ++
    ", join_clause: " ++ toString r.join.isSome ++
    ", where_clause: " ++ toString r.filter.isSome ++
    ", order_by: [" ++ ", ".intercalate (r.orderBy.map OrderColumn.debug) ++
    "], paginate: " ++ toString r.paginated ++ " \x7d"

end Resolver

end RelaySql
