import RelaySql.Arguments
import RelaySql.Cursor

/-!
# Page — what a request asks for

A page is asked for by four arguments: `first` and `last` limit the number of edges from either
end, `after` and `before` are cursors that its edges must lie between.  The kinds of all four are
checked first, in the order `first`, `after`, `last`, `before`; then their values in the same
order, which turns cursors into offsets.
-/

namespace RelaySql

/-- The four arguments as they were given. -/
structure PageRequest where
  first : Option Int := none
  after : Option Cursor := none
  last : Option Int := none
  before : Option Cursor := none
deriving DecidableEq, Repr, Inhabited

/-- The four arguments as numbers: two sizes and two offsets. -/
structure PageBounds where
  first : Option Nat := none
  after : Option Nat := none
  last : Option Nat := none
  before : Option Nat := none
deriving DecidableEq, Repr, Inhabited

namespace PageRequest

/-- Takes the four arguments out of a field's arguments. -/
def ofArguments (args : Arguments) : Except Fault PageRequest := do
  let first ← args.int? "first"
  let after ← args.string? "after"
  let last ← args.int? "last"
  let before ← args.string? "before"
  return ⟨first, after.map Cursor.mk, last, before.map Cursor.mk⟩

/-- A size is not negative. -/
def size (name : String) : Option Int → Except Fault (Option Nat)
  | none => .ok none
  | some n => if 0 ≤ n then .ok (some n.toNat) else .error (.page (.negative name n))

/-- The offset of a cursor, if there is one. -/
def offset : Option Cursor → Except Fault (Option Nat)
  | none => .ok none
  | some c => c.offset.map some

/-- Checks the values and decodes the cursors. -/
def bounds (r : PageRequest) : Except Fault PageBounds := do
  let first ← size "first" r.first
  let after ← offset r.after
  let last ← size "last" r.last
  let before ← offset r.before
  return ⟨first, after, last, before⟩

end PageRequest

end RelaySql
