import RelaySql.Proofs.Page.Slice

/-!
# Pages — the rows of a page lie together

A page keeps a range of offsets, so its rows are neighbours in the slice and their cursors are those
of consecutive offsets.

* `Connection.edgesFrom`: rows at consecutive offsets, each with the cursor of its own.
* `Connection.edges_within`: the edges of a page are the rows of the range that it keeps.
-/

namespace RelaySql

namespace Connection

variable {α : Type}

/-- Rows at consecutive offsets from `start` on, each with the cursor of its own. -/
def edgesFrom (start : Nat) (rows : List α) : List (Edge α) :=
  (rows.zipIdx start).map fun p => ⟨p.1, Cursor.ofOffset p.2⟩

@[simp] theorem length_edgesFrom (start : Nat) (rows : List α) :
    (edgesFrom start rows).length = rows.length := by
  simp [edgesFrom]

@[simp] theorem nodes_edgesFrom (start : Nat) (rows : List α) :
    (edgesFrom start rows).map Edge.node = rows := by
  rw [edgesFrom, List.map_map]
  exact List.zipIdx_map_fst start rows

@[simp] theorem cursors_edgesFrom (start : Nat) (rows : List α) :
    (edgesFrom start rows).map Edge.cursor =
      (List.range' start rows.length).map Cursor.ofOffset := by
  rw [edgesFrom, List.map_map, ← List.zipIdx_map_snd start rows, List.map_map]
  rfl

theorem head?_edgesFrom {start : Nat} {rows : List α} (h : rows ≠ []) :
    (edgesFrom start rows).head?.map Edge.cursor = some (Cursor.ofOffset start) := by
  cases rows with
  | nil => exact absurd rfl h
  | cons row rest => rfl

theorem getLast?_edgesFrom {start : Nat} {rows : List α} (h : rows ≠ []) :
    (edgesFrom start rows).getLast?.map Edge.cursor =
      some (Cursor.ofOffset (start + rows.length - 1)) := by
  rw [edgesFrom, List.getLast?_map, List.getLast?_zipIdx, List.getLast?_eq_some_getLast h]
  rfl

/-- The rows of a slice that lie in a range, each with its offset. -/
def rowsWithin (range : Span) (slice : List α) (start : Nat) : List (α × Nat) :=
  (slice.zipIdx start).filter fun p => range.contains p.2

theorem edgesWithin_eq_map (range : Span) (slice : List α) (start : Nat) :
    edgesWithin range slice start =
      (rowsWithin range slice start).map fun p => ⟨p.1, Cursor.ofOffset p.2⟩ := by
  rw [edgesWithin, rowsWithin, ← List.filterMap_eq_map, List.filterMap_filter]
  rfl

/-- The rows of a slice that lie in a range are neighbours. -/
theorem rowsWithin_eq {lo start : Nat} (h : start ≤ lo) (hi : Nat) (slice : List α) :
    rowsWithin ⟨lo, hi⟩ slice start = ((slice.drop (lo - start)).take (hi - lo)).zipIdx lo := by
  have hz := zipIdx_slice slice (lo - start) (hi - lo) start
  rw [Nat.add_sub_cancel' h] at hz
  rw [hz, rowsWithin]
  refine List.filter_congr fun p _ => ?_
  rw [Bool.eq_iff_iff, Span.contains_iff, decide_eq_true_iff]
  change lo ≤ p.2 ∧ p.2 < hi ↔ _
  omega

/-- So are their edges. -/
theorem edgesWithin_eq {range : Span} {start : Nat} (h : start ≤ range.start) (slice : List α) :
    edgesWithin range slice start = edgesFrom range.start
      ((slice.drop (range.start - start)).take (range.stop - range.start)) := by
  rw [edgesWithin_eq_map, edgesFrom, rowsWithin_eq h range.stop]

variable {slice : List α} {b : PageBounds} {p : Placement}

/-- The range that a page keeps. -/
def kept (slice : List α) (b : PageBounds) (p : Placement) : Span :=
  b.keep ⟨p.start, addUpTo64 p.start slice.length⟩

/-- **The edges of a page** are the rows of the range that it keeps. -/
theorem edges_within (slice : List α) (b : PageBounds) (p : Placement) :
    (within slice b p).edges = edgesFrom (kept slice b p).start
      ((slice.drop ((kept slice b p).start - p.start)).take
        ((kept slice b p).stop - (kept slice b p).start)) :=
  edgesWithin_eq (PageBounds.start_le_start b _) slice

/-- As many rows as the range holds offsets. -/
theorem length_edges_within (h : p.start + slice.length ≤ maxUInt64) :
    (within slice b p).edges.length = (kept slice b p).stop - (kept slice b p).start := by
  have hstop := PageBounds.stop_le b ⟨p.start, addUpTo64 p.start slice.length⟩
  have hstart := PageBounds.start_le_start b ⟨p.start, addUpTo64 p.start slice.length⟩
  rw [addUpTo64_of_le h] at hstop hstart
  rw [edges_within, length_edgesFrom, List.length_take, List.length_drop, kept, addUpTo64_of_le h]
  simp only at hstop hstart ⊢
  omega

/-- The nodes of a page are neighbours in its slice. -/
theorem nodes_within (slice : List α) (b : PageBounds) (p : Placement) :
    (within slice b p).nodes = (slice.drop ((kept slice b p).start - p.start)).take
      ((kept slice b p).stop - (kept slice b p).start) := by
  rw [nodes, edges_within, nodes_edgesFrom]

end Connection

end RelaySql
