import RelaySql.Page.Window
import RelaySql.Resolver.Basic
import RelaySql.Resolver.Batch

/-!
# Resolver — composing the statement of a field

One statement is composed for one resolution of a field.  Under a batch of parents a join is
required: its condition, which may not be blank, and the keys of the batch.  The filter follows,
which may not be blank either, then the order and, for a field served in pages, the window.
-/

namespace RelaySql

/-- A statement and how its rows become the value of the field. -/
structure ComposedQuery where
  statement : Statement
  /-- The window of a page; a field without pages has none. -/
  window : Option PageWindow
  request : PageRequest
deriving DecidableEq, Repr

namespace ComposedQuery

/-- The field is served in pages. -/
def isPaginated (q : ComposedQuery) : Bool := q.window.isSome

/-- The value of the field with these rows. -/
def finish (q : ComposedQuery) (rows : List Row) : Except Fault Resolution :=
  match q.window with
  | none => .ok (.rows (rows.map Row.visible))
  | some window => do
    let (shown, place) ← window.place rows
    return .connection (← Connection.ofSlice shown q.request place)

/-- The value of the field for a parent without rows. -/
def empty (q : ComposedQuery) : Resolution :=
  match q.window with
  | none => .rows []
  | some _ => .connection .empty

end ComposedQuery

namespace Resolver

variable {C : Type}

/-- The join under a batch of parents. -/
def composeJoin (r : Resolver C) (args : Arguments) (context : C) (parents : ParentBatch) :
    Except Fault Join :=
  match r.join with
  | none => .error (.composition (.noJoin r.table))
  | some condition => do
    let parentAlias := parents.aliasFor r.table
    let condition ← condition parentAlias r.table args context
    if Text.isBlank condition then
      .error (.composition (.blankJoin parents.table r.table))
    else
      let keys ← parents.distinctKeys
      return ⟨parents.table, parentAlias, parents.keyColumn, condition, keys.values⟩

/-- The filter, if there is one. -/
def composeFilter (r : Resolver C) (args : Arguments) (context : C) :
    Except Fault (Option String) :=
  match r.filter with
  | none => .ok none
  | some condition => do
    match ← condition r.table args context with
    | none => return none
    | some condition =>
      if Text.isBlank condition then .error (.composition (.blankFilter r.table))
      else return some condition

/-- The statement for the field, under a batch of parents if one is given. -/
def compose (r : Resolver C) (args : Arguments) (context : C) (parents : Option ParentBatch) :
    Except Fault ComposedQuery := do
  let join ← match parents with
    | none => pure none
    | some parents => (r.composeJoin args context parents).map some
  let filter ← r.composeFilter args context
  let statement : Statement := { table := r.table, join, filter, orderBy := r.orderBy }
  if r.paginated then
    let request ← PageRequest.ofArguments args
    let window := PageWindow.ofBounds (← request.bounds)
    let offset := if window.offset = 0 then none else some window.offset
    return ⟨{ statement with limit := window.limit, offset, countTotal := true },
      some window, request⟩
  else return ⟨statement, none, {}⟩

end Resolver

end RelaySql
