import RelaySql.Resolver.Resolution
import RelaySql.Sql.Literal

/-!
# Resolver — batches of parent rows

A nested field is resolved for all the rows it is selected under at once.  A column of these rows
identifies each of them; rows with the same key share what is found for it.
-/

namespace RelaySql

/-- Rows of one table, with the column that identifies them. -/
structure ParentBatch where
  table : String
  keyColumn : String
  rows : List Row
deriving DecidableEq, Repr

/-- The text by which a key is compared; null, arrays and objects are no keys. -/
def keyText : Json → Except Fault String
  | .string s => .ok s
  | .number n => .ok n.text
  | .boolean b => .ok (toString b)
  | v => .error (.composition (.unusableKey v))

namespace ParentBatch

/-- A batch of the rows of a resolved field. -/
def ofResolution (table keyColumn : String) (r : Resolution) : ParentBatch :=
  ⟨table, keyColumn, r.nodes⟩

/-- The value of the column that identifies a row. -/
def keyValue (p : ParentBatch) (row : Row) : Except Fault Json :=
  match Fields.get? row p.keyColumn with
  | some v => .ok v
  | none => .error (.composition (.noKeyColumn p.table p.keyColumn))

/-- The key of a row. -/
def keyOf (p : ParentBatch) (row : Row) : Except Fault String := do
  keyText (← p.keyValue row)

/-- Adds the key of a row with its literal, unless it is there. -/
def addKey (p : ParentBatch) (keys : Fields String) (row : Row) : Except Fault (Fields String) := do
  let value ← p.keyValue row
  let key ← keyText value
  if (keys.get? key).isSome then return keys
  else return keys.insert key (← Sql.literal value)

/-- The keys of the rows with their literals, each once, in the order of the rows. -/
def distinctKeys (p : ParentBatch) : Except Fault (Fields String) := p.rows.foldlM p.addKey []

/-- The name a statement calls the batch's table by, which differs from the child's table. -/
def aliasFor (p : ParentBatch) (child : String) : String :=
  if p.table = child then p.table ++ "_parent" else p.table

/-- Stores under `field` of each row what was found for its key. -/
def attach (p : ParentBatch) (field : String) (groups : Fields Resolution) :
    Except Fault (List Row) :=
  p.rows.mapM fun row => do
    let key ← p.keyOf row
    match groups.get? key with
    | none => .error (.composition (.noResolution key p.table))
    | some r => .ok (Fields.insert row field r.toJson)

end ParentBatch

end RelaySql
