import RelaySql.Page.Connection
import RelaySql.Sql.Internal

/-!
# Page — the window a statement fetches

A statement need not fetch the whole set to make a page of it.  The window says how many rows to
skip and how many to take.  A page bounded from the front takes one row more than it shows: the
probe, which tells that more rows follow.  A page bounded from the back only, without a cursor to
count back from, needs every row that `after` lets through.
-/

namespace RelaySql

/-- The rows of the whole set that a statement fetches. -/
structure PageWindow where
  offset : Nat
  limit : Option Nat
  /-- The size of the page, when a probe is fetched past it. -/
  pageSize : Option Nat
deriving DecidableEq, Repr, Inhabited

namespace PageWindow

/-- The window for a page. -/
def ofBounds (b : PageBounds) : PageWindow :=
  let lower := b.lower
  let span := b.before.map (· - lower)
  match b.first, b.last, b.before with
  | some first, _, _ =>
    let size := match span with
      | none => first
      | some span => min span first
    ⟨lower, some (addUpTo64 size 1), some size⟩
  | none, some last, some before =>
    let offset := max lower (before - last)
    ⟨offset, some (before - offset), none⟩
  | none, _, _ => ⟨lower, span, none⟩

/-- The size of the whole set, if the row tells it. -/
def total (row : Row) : Except Fault (Option Nat) :=
  match Fields.get? row totalColumn with
  | none | some .null => .ok none
  | some v =>
    let count := match v with
      | .number n => n.nat?
      | _ => none
    match count with
    | some n => .ok (some n)
    | none => .error (.source (.rowDecode (totalColumn ++ " is not a row count: " ++ v.text)))

/-- The size of the whole set as far as the number of fetched rows tells it. -/
def inferredLength (w : PageWindow) (fetched : Nat) : Option Nat :=
  let all := some (addUpTo64 w.offset fetched)
  let unlessFull := match w.limit with
    | some limit => if limit ≤ fetched then none else all
    | none => all
  match w.pageSize with
  | some size => if size < fetched then some (addUpTo64 (addUpTo64 w.offset size) 1) else unlessFull
  | none => unlessFull

/-- Drops the probe and the columns no page shows, and finds the place of the rows in the whole
set: by the total, if the first row tells it, or else by what their number tells. -/
def place (w : PageWindow) (rows : List Row) : Except Fault (List Row × Placement) := do
  let total ← match rows with
    | [] => .ok none
    | row :: _ => total row
  let shown := match w.pageSize with
    | some size => rows.take size
    | none => rows
  return (shown.map Row.visible, ⟨total <|> w.inferredLength rows.length, w.offset⟩)

end PageWindow

end RelaySql
