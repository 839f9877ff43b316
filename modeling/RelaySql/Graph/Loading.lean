import RelaySql.Graph.Lookahead
import RelaySql.Resolver.Resolve

/-!
# Graph — loading nested fields

Every load is resolved once for all the rows it is below.  Its value for each row is stored in that
row, in a column named for the response key, where the nested field reads it back.  A load that
fails stores its fault there instead, so the rows keep their other columns.
-/

namespace RelaySql

/-- The member that marks a value as a fault. -/
def faultMember : String := "$error"

/-- The column of a row that holds what was loaded for a response key. -/
def loadedColumn (key : String) : String := "$" ++ key

/-- A fault as a value. -/
def Fault.toJson (f : Fault) : Json := .object [(faultMember, .string f.message)]

namespace Resolution

/-- The value of a field that serves only the first row. -/
def firstJson (r : Resolution) : Json := .ofOption .object r.nodes.head?

/-- Hands the rows of the groups back to them, from the front. -/
def refill : Fields Resolution → List Row → Fields Resolution
  | [], _ => []
  | (key, r) :: groups, all =>
    let n := r.nodes.length
    (key, r.setNodes (all.take n)) :: refill groups (all.drop n)

end Resolution

namespace Load

variable {C : Type}

/-- The response key of a load. -/
def key : Load C → String
  | mk key .. => key

/-- The value of a nested field for each row of a batch. -/
def valuesOf (parents : ParentBatch) (single : Bool) (groups : Fields Resolution) :
    Except Fault (List Json) :=
  parents.rows.mapM fun row => do
    let key ← parents.keyOf row
    return match groups.get? key with
      | none => .null
      | some r => if single then r.firstJson else r.toJson

/-- Stores a value for each row. -/
def store (key : String) (rows : List Row) (values : List Json) : List Row :=
  rows.zipWith (fun row v => Fields.insert row (loadedColumn key) v) values

mutual

/-- Loads a nested field for all rows of a table: its value for each row. -/
def values (context : C) (table : String) (rows : List Row) : Load C → Run (List Json)
  | mk _ keyColumn single resolver arguments below => do
    let parents : ParentBatch := ⟨table, keyColumn, rows⟩
    let groups ← resolver.resolveNested arguments context parents
    let children := groups.values.flatMap Resolution.nodes
    let children ← storeAll context resolver.table children below
    valuesOf parents single (Resolution.refill groups children)

/-- Loads nested fields one after another and stores their values in the rows; without rows nothing
is loaded. -/
def storeAll (context : C) (table : String) (rows : List Row) : List (Load C) → Run (List Row)
  | [] => return rows
  | load :: rest => do
    if rows = [] then return []
    else
      let values ← try load.values context table rows
        catch fault => pure (rows.map fun _ => fault.toJson)
      storeAll context table (store load.key rows values) rest

end

end Load

namespace FieldResolver

variable {C : Type}

/-- Resolves a field and loads the nested fields selected below it. -/
def load (r : FieldResolver C) (context : C) (f : SelectedField) : Run Resolution := do
  let resolution ← r.resolver.resolve f.arguments context
  let rows ← Load.storeAll context r.resolver.table resolution.nodes (r.loads f)
  return resolution.setNodes rows

end FieldResolver

end RelaySql
