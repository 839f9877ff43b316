import RelaySql.Page.Request

/-!
# Page — connections

A connection is one page of an ordered set of rows.  Each row of the page comes with the cursor of
its offset in the whole set, and the page says whether rows lie beyond either end of it.

The rows are given as a slice of the whole set.  A slice knows where it starts and may know how
long the whole set is.  `after` and `before` bound the page first, then `first` caps it from the
front and `last` from the back.
-/

namespace RelaySql

/-- A row of a page with its cursor. -/
structure Edge (α : Type) where
  node : α
  cursor : Cursor
deriving DecidableEq, Repr

/-- What lies beyond a page, and its ends. -/
structure PageInfo where
  hasNextPage : Bool := false
  hasPreviousPage : Bool := false
  startCursor : Option Cursor := none
  endCursor : Option Cursor := none
deriving DecidableEq, Repr, Inhabited

/-- One page of a set of rows. -/
structure Connection (α : Type) where
  edges : List (Edge α)
  pageInfo : PageInfo
deriving DecidableEq, Repr

/-- Where a slice lies in the whole set: the size of the whole, when it is known, and the offset of
the first row of the slice. -/
structure Placement where
  length : Option Nat := none
  start : Nat := 0
deriving DecidableEq, Repr, Inhabited

/-- A range of offsets, without its upper end. -/
structure Span where
  start : Nat
  stop : Nat
deriving DecidableEq, Repr, Inhabited

namespace Span

/-- The offset lies in the range. -/
def contains (s : Span) (offset : Nat) : Bool := s.start ≤ offset && offset < s.stop

end Span

namespace PageBounds

/-- The first offset that `after` lets through. -/
def lower (b : PageBounds) : Nat :=
  match b.after with
  | none => 0
  | some a => addUpTo64 a 1

/-- The offsets of a slice that the bounds keep, for a slice that covers `slice`. -/
def keep (b : PageBounds) (slice : Span) : Span :=
  let start := max slice.start b.lower
  let stop := match b.before with
    | none => slice.stop
    | some before => min slice.stop before
  let stop := match b.first with
    | none => stop
    | some first => min stop (addUpTo64 start first)
  let start := match b.last with
    | none => start
    | some last => max start (stop - last)
  ⟨start, stop⟩

end PageBounds

namespace Connection

variable {α : Type}

/-- The page without rows, at no place. -/
def empty : Connection α := ⟨[], {}⟩

/-- The rows of a page. -/
def nodes (c : Connection α) : List α := c.edges.map Edge.node

/-- Replaces the rows of a page by as many others, which keep their cursors. -/
def setNodes (c : Connection α) (nodes : List α) : Connection α :=
  { c with edges := c.edges.zipWith (fun e n => { e with node := n }) nodes }

/-- The rows of a slice that lie in a range, each with the cursor of its offset. -/
def edgesWithin (range : Span) (slice : List α) (start : Nat) : List (Edge α) :=
  (slice.zipIdx start).filterMap fun (node, offset) =>
    if range.contains offset then some ⟨node, Cursor.ofOffset offset⟩ else none

/-- What lies beyond the kept range in a set that reaches up to `upper`. -/
def info (kept : Span) (upper : Nat) (edges : List (Edge α)) : PageInfo where
  hasNextPage := kept.stop < upper
  hasPreviousPage := 0 < kept.start && 0 < upper
  startCursor := edges.head?.map Edge.cursor
  endCursor := edges.getLast?.map Edge.cursor

/-- The page of a slice under checked bounds. -/
def within (slice : List α) (bounds : PageBounds) (place : Placement) : Connection α :=
  let stop := addUpTo64 place.start slice.length
  let kept := bounds.keep ⟨place.start, stop⟩
  let edges := edgesWithin kept slice place.start
  ⟨edges, info kept (max (place.length.getD stop) stop) edges⟩

/-- The page of a slice that a request asks for. -/
def ofSlice (slice : List α) (request : PageRequest) (place : Placement) :
    Except Fault (Connection α) := do
  return within slice (← request.bounds) place

/-- The page of a whole set that a request asks for. -/
def ofList (rows : List α) (request : PageRequest) : Except Fault (Connection α) :=
  ofSlice rows request ⟨some rows.length, 0⟩

end Connection

end RelaySql
