import RelaySql.Json.Basic
import RelaySql.Text.Quoted

/-!
# Sql — ordering columns

A column is ordered in one of two directions, ascending unless stated.  A column whose name holds a
dot is qualified already and is written as it is; any other is qualified by its table.
-/

namespace RelaySql

/-- The direction of an ordering. -/
inductive Direction where
  | ascending
  | descending
deriving DecidableEq, Repr, Inhabited

namespace Direction

/-- The keyword of a direction. -/
def keyword : Direction → String
  | ascending => "ASC"
  | descending => "DESC"

/-- The name of a direction in documents. -/
def name : Direction → String
  | ascending => "asc"
  | descending => "desc"

/-- The direction a keyword stands for, whatever the case of its ASCII letters. -/
def ofKeyword? (s : String) : Option Direction :=
  let lower := s.toList.map Char.toLower
  if lower = ascending.name.toList then some ascending
  else if lower = descending.name.toList then some descending
  else none

/-- The direction of exactly this name. -/
def ofName? (s : String) : Option Direction :=
  if s = ascending.name then some ascending
  else if s = descending.name then some descending
  else none

end Direction

/-- A column to order by. -/
structure OrderColumn where
  column : String
  direction : Direction := .ascending
deriving DecidableEq, Repr, Inhabited

namespace OrderColumn

/-- The column, qualified by `table` unless it is qualified already. -/
def qualified (o : OrderColumn) (table : String) : String :=
  if '.' ∈ o.column.toList then o.column else table ++ "." ++ o.column

/-- The column and its direction as a statement orders by them. -/
def sql (o : OrderColumn) (table : String) : String :=
  o.qualified table ++ " " ++ o.direction.keyword

/-- The name of the column in a result: what follows the last dot. -/
def resultName (o : OrderColumn) : String :=
  String.ofList (o.column.toList.reverse.takeWhile (· ≠ '.')).reverse

/-- The column shown in diagnostics. -/
def debug (o : OrderColumn) : String :=
  let direction := match o.direction with
    | .ascending => "Asc"
    | .descending => "Desc"
  "OrderColumn \x7b column: " ++ Text.quoted o.column ++ ", direction: " ++ direction ++ " \x7d"

/-- The column as a document. -/
def toJson (o : OrderColumn) : Json :=
  .object [("column", .string o.column), ("direction", .string o.direction.name)]

/-- Reads a column from a document: an object with a column name and perhaps a direction, or the
list of the two in this order.  Other members of the object are passed over. -/
def ofJson? : Json → Option OrderColumn
  | .object members =>
    match Fields.get? members "column", Fields.get? members "direction" with
    | some (.string c), none => some ⟨c, .ascending⟩
    | some (.string c), some (.string d) => (Direction.ofName? d).map (OrderColumn.mk c)
    | _, _ => none
  | .array [.string c] => some ⟨c, .ascending⟩
  | .array [.string c, .string d] => (Direction.ofName? d).map (OrderColumn.mk c)
  | _ => none

end OrderColumn

end RelaySql
