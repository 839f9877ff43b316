import RelaySql.Json.Number
import RelaySql.Sql.Internal
import RelaySql.Sql.Order

/-!
# Sql — statements

A statement selects rows of one table.  At top level it may count the whole result and skip and
take rows of it.  Nested under a batch of parent rows it joins the parents' table and selects,
beside each row, the key of the parent it belongs to; a page per parent is then cut out by the
place of a row among the rows of its parent, since `LIMIT` and `OFFSET` would cut the whole batch.

Row counts of the database are signed 64-bit integers, so larger limits and offsets are written as
the largest of these.

* `Statement.sql` is the text of a statement.
* `Statement.jsonRowsSql` wraps it so that each row comes as one object, and states the order
  again, since the order of a subquery does not carry over.
-/

namespace RelaySql

/-- How the rows of a table are found under a batch of parent rows. -/
structure Join where
  parentTable : String
  /-- The name that the condition calls the parent's table by. -/
  parentAlias : String
  /-- The column that identifies a parent row. -/
  parentKey : String
  condition : String
  /-- The literals of the keys in the batch. -/
  parentKeys : List String
deriving DecidableEq, Repr, Inhabited

/-- A selection of rows of a table. -/
structure Statement where
  table : String
  join : Option Join := none
  filter : Option String := none
  orderBy : List OrderColumn := []
  /-- How many rows to take, of each parent if there is a join. -/
  limit : Option Nat := none
  /-- How many rows to skip, of each parent if there is a join. -/
  offset : Option Nat := none
  /-- The size of the result is selected beside each row. -/
  countTotal : Bool := false
deriving DecidableEq, Repr, Inhabited

/-- A row count as the database can hold it. -/
def rowCount (n : Nat) : Nat := min n maxInt64

/-- A column of the statement's own between double quotes. -/
def quotedColumn (column : String) : String := "\"" ++ column ++ "\""

/-- What a statement is ordered by. -/
inductive OrderKey where
  /-- The key column of the parent's table, qualified. -/
  | parent (qualified : String)
  /-- A column that the statement adds. -/
  | internal (column : String)
  | column (o : OrderColumn)
deriving DecidableEq, Repr

/-- What the rows of a wrapped statement are ordered by. -/
inductive ResultKey where
  | internal (column : String)
  | column (name : String) (direction : Direction)
deriving DecidableEq, Repr

/-- The places of a parent's rows that a statement keeps: from `start`, and below `stop` if there
is one. -/
structure OffsetBounds where
  start : Nat
  stop : Option Nat
deriving DecidableEq, Repr

namespace Join

/-- The key column of the parent's table. -/
def qualifiedKey (j : Join) : String := j.parentAlias ++ "." ++ j.parentKey

/-- The clause that joins the parent's table. -/
def clause (j : Join) : String :=
  let named := if j.parentAlias = j.parentTable then "" else " AS " ++ j.parentAlias
  "INNER JOIN " ++ j.parentTable ++ named ++ " ON " ++ j.condition

end Join

namespace OrderKey

/-- The key as a statement on `table` orders by it. -/
def sql (table : String) : OrderKey → String
  | parent qualified => qualified
  | internal name => quotedColumn name
  | column o => o.sql table

end OrderKey

namespace ResultKey

/-- The key as the wrapping query orders by it. -/
def sql : ResultKey → String
  | internal name => "\"$row\"." ++ quotedColumn name
  | column name direction => "\"$row\"." ++ name ++ " " ++ direction.keyword

end ResultKey

namespace OffsetBounds

/-- A row at this place is kept. -/
def contains (b : OffsetBounds) (place : Nat) : Bool :=
  b.start ≤ place && b.stop.all (place < ·)

/-- The condition that keeps these places. -/
def sql (b : OffsetBounds) : String :=
  let column := quotedColumn offsetColumn
  let upper := match b.stop with
    | none => ""
    | some stop => " AND " ++ column ++ " < " ++ toString stop
  "WHERE " ++ column ++ " >= " ++ toString b.start ++ upper

end OffsetBounds

namespace Statement

/-- Clauses one to a line. -/
def lines (clauses : List String) : String := "\n".intercalate clauses

/-- Columns with a comma between them. -/
def commaSeparated (items : List String) : String := ", ".intercalate items

/-- The columns of the order, as the statement's own table qualifies them. -/
def orderText (s : Statement) : String := commaSeparated (s.orderBy.map (·.sql s.table))

/-- The clause that orders by these keys, if there are any. -/
def orderClause (s : Statement) (keys : List OrderKey) : List String :=
  if keys = [] then [] else ["ORDER BY " ++ commaSeparated (keys.map (·.sql s.table))]

/-- The places that a page per parent keeps, if the statement cuts one out. -/
def offsetBounds? (s : Statement) : Option OffsetBounds :=
  if s.join.isSome ∧ s.countTotal ∧ (s.limit.isSome ∨ s.offset.isSome) then
    let start := s.offset.getD 0
    some ⟨rowCount start, s.limit.map fun limit => rowCount (addUpTo64 start limit)⟩
  else none

/-- What the statement is ordered by: under parents by the parent first. -/
def order (s : Statement) : List OrderKey :=
  let columns := s.orderBy.map OrderKey.column
  match s.join with
  | none => columns
  | some join =>
    if s.offsetBounds?.isSome then [.internal parentKeyColumn, .internal offsetColumn]
    else .parent join.qualifiedKey :: columns

/-- The order restated over the columns of the result. -/
def resultOrder (s : Statement) : List ResultKey :=
  if s.offsetBounds?.isSome then [.internal parentKeyColumn, .internal offsetColumn]
  else
    let parent := if s.join.isSome then [ResultKey.internal parentKeyColumn] else []
    parent ++ s.orderBy.map fun o => .column o.resultName o.direction

/-- The clauses of a statement at top level. -/
def topClauses (s : Statement) : List String :=
  let count := if s.countTotal then ", COUNT(*) OVER () AS " ++ quotedColumn totalColumn else ""
  ["SELECT " ++ s.table ++ ".*" ++ count, "FROM " ++ s.table] ++
    (s.filter.map ("WHERE " ++ ·)).toList ++
    s.orderClause s.order ++
    (s.limit.map fun n => "LIMIT " ++ toString (rowCount n)).toList ++
    (s.offset.map fun n => "OFFSET " ++ toString (rowCount n)).toList

/-- What a nested statement selects beside the columns of its table. -/
def nestedColumns (s : Statement) (key : String) : String :=
  let within := "PARTITION BY " ++ key
  let ordered := if s.orderBy = [] then within else within ++ " ORDER BY " ++ s.orderText
  let counts :=
    if s.countTotal then
      ", COUNT(*) OVER (" ++ within ++ ") AS " ++ quotedColumn totalColumn ++
        ", ROW_NUMBER() OVER (" ++ ordered ++ ") - 1 AS " ++ quotedColumn offsetColumn
    else ""
  key ++ " AS " ++ quotedColumn parentKeyColumn ++ counts

/-- The clauses that find the rows of a batch of parents. -/
def nestedClauses (s : Statement) (join : Join) : List String :=
  let key := join.qualifiedKey
  ["SELECT " ++ s.table ++ ".*, " ++ s.nestedColumns key,
    "FROM " ++ s.table,
    join.clause,
    "WHERE " ++ key ++ " IN (" ++ commaSeparated join.parentKeys ++ ")"] ++
    (s.filter.map fun condition => "AND (" ++ condition ++ ")").toList

/-- The clauses of a statement. -/
def clauses (s : Statement) : List String :=
  match s.join with
  | none => s.topClauses
  | some join =>
    match s.offsetBounds? with
    | none => s.nestedClauses join ++ s.orderClause s.order
    | some bounds =>
      ["SELECT * FROM (", lines (s.nestedClauses join), ") AS \"$window\"", bounds.sql] ++
        s.orderClause s.order

/-- The text of the statement. -/
def sql (s : Statement) : String := lines s.clauses

/-- The text of the query that returns each row of the statement as one object. -/
def jsonRowsSql (s : Statement) : String :=
  let order := s.resultOrder
  let clause := if order = [] then "" else "\nORDER BY " ++ commaSeparated (order.map (·.sql))
  "SELECT row_to_json(\"$row\")\nFROM (\n" ++ s.sql ++ "\n) AS \"$row\"" ++ clause

end Statement

end RelaySql
