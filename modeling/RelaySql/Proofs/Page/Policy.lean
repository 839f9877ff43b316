import Mathlib.Data.List.DropRight
import RelaySql.Proofs.Page.Edges

/-!
# Pages — the bounds applied one after another

A page is cut out of its slice at once, as a range of offsets.  The range holds the rows that are
left when the bounds are applied one after another: `after` drops rows from the front and `before`
from the back, then `first` caps what is left from the front, and `last` what is left then from the
back.

* `PageBounds.select`: the rows that are left.
* `PageBounds.select_zipIdx`: the range that is kept holds these rows, also where the cursors cross
  or lie beyond the slice.
* `Connection.edges_ofSlice`: they are the edges of the page, whatever is known of the whole set.
-/

namespace RelaySql

theorem take_zipIdx {α : Type} (xs : List α) (n base : Nat) :
    (xs.zipIdx base).take n = (xs.take n).zipIdx base := by
  ext1 i
  simp only [List.getElem?_take, List.getElem?_zipIdx]
  split <;> rfl

theorem drop_zipIdx {α : Type} (xs : List α) (n base : Nat) :
    (xs.zipIdx base).drop n = (xs.drop n).zipIdx (base + n) := by
  ext1 i
  simp only [List.getElem?_drop, List.getElem?_zipIdx, Nat.add_assoc]

/-- All rows of a slice lie in its range. -/
theorem Connection.rowsWithin_whole {α : Type} (slice : List α) (start : Nat) :
    rowsWithin ⟨start, start + slice.length⟩ slice start = slice.zipIdx start := by
  rw [rowsWithin_eq (Nat.le_refl start), Nat.sub_self, Nat.add_sub_cancel_left, List.drop_zero,
    List.take_length]

namespace PageBounds

variable {α : Type}

/-! ### The bounds, one after another -/

/-- Drops the rows up to the cursor `after`. -/
def dropUpTo (after : Option Nat) (rows : List (α × Nat)) : List (α × Nat) :=
  match after with
  | none => rows
  | some after => rows.filter (after < ·.2)

/-- Drops the rows from the cursor `before` on. -/
def dropFrom (before : Option Nat) (rows : List (α × Nat)) : List (α × Nat) :=
  match before with
  | none => rows
  | some before => rows.filter (·.2 < before)

/-- Keeps the first rows. -/
def capFront (first : Option Nat) (rows : List (α × Nat)) : List (α × Nat) :=
  match first with
  | none => rows
  | some first => rows.take first

/-- Keeps the last rows. -/
def capBack (last : Option Nat) (rows : List (α × Nat)) : List (α × Nat) :=
  match last with
  | none => rows
  | some last => rows.rtake last

/-- What the bounds leave of rows with their offsets: `after` and `before` first, then `first` caps
what is left from the front, and `last` what is left then from the back. -/
def select (b : PageBounds) (rows : List (α × Nat)) : List (α × Nat) :=
  capBack b.last (capFront b.first (dropFrom b.before (dropUpTo b.after rows)))

/-! Each bound leaves the rows of a smaller range. -/

open Connection (rowsWithin rowsWithin_eq rowsWithin_whole)

variable {slice : List α} {start lo hi : Nat}

theorem dropUpTo_rowsWithin (hhi : hi ≤ maxUInt64) (b : PageBounds) :
    dropUpTo b.after (rowsWithin ⟨lo, hi⟩ slice start) =
      rowsWithin ⟨max lo b.lower, hi⟩ slice start := by
  rcases hafter : b.after with _ | after
  · simp only [dropUpTo, lower, hafter, Nat.max_zero]
  · simp only [dropUpTo, lower, hafter, rowsWithin, List.filter_filter]
    refine List.filter_congr fun p _ => ?_
    -- an offset in the range lies below the largest sum
    rw [Bool.eq_iff_iff]
    simp only [Bool.and_eq_true, Span.contains_iff, decide_eq_true_eq, addUpTo64]
    omega

theorem dropFrom_rowsWithin (b : PageBounds) :
    dropFrom b.before (rowsWithin ⟨lo, hi⟩ slice start) =
      rowsWithin ⟨lo, match b.before with
        | none => hi
        | some before => min hi before⟩ slice start := by
  rcases b.before with _ | before
  · rfl
  · simp only [dropFrom, rowsWithin, List.filter_filter]
    refine List.filter_congr fun p _ => ?_
    rw [Bool.eq_iff_iff]
    simp only [Bool.and_eq_true, Span.contains_iff, decide_eq_true_eq]
    omega

theorem capFront_rowsWithin (hlo : start ≤ lo) (hhi : hi ≤ maxUInt64) (b : PageBounds) :
    capFront b.first (rowsWithin ⟨lo, hi⟩ slice start) =
      rowsWithin ⟨lo, match b.first with
        | none => hi
        | some first => min hi (addUpTo64 lo first)⟩ slice start := by
  rcases b.first with _ | first
  · rfl
  · have hcount : min first (hi - lo) = min hi (addUpTo64 lo first) - lo := by
      simp only [addUpTo64]
      omega
    simp only [capFront, rowsWithin_eq hlo, take_zipIdx, List.take_take, hcount]

theorem capBack_rowsWithin (hlo : start ≤ lo) (hhi : hi ≤ start + slice.length) (b : PageBounds) :
    capBack b.last (rowsWithin ⟨lo, hi⟩ slice start) =
      rowsWithin ⟨match b.last with
        | none => lo
        | some last => max lo (hi - last), hi⟩ slice start := by
  rcases b.last with _ | last
  · rfl
  · have hdropped : min (hi - lo) (slice.length - (lo - start)) - last = hi - lo - last := by omega
    have hstart : lo + (hi - lo - last) = max lo (hi - last) := by omega
    have hskipped : lo - start + (hi - lo - last) = max lo (hi - last) - start := by omega
    have hcount : hi - lo - (hi - lo - last) = hi - max lo (hi - last) := by omega
    have hle : start ≤ max lo (hi - last) := Nat.le_trans hlo (Nat.le_max_left _ _)
    simp only [capBack, List.rtake, rowsWithin_eq hlo, rowsWithin_eq hle, drop_zipIdx,
      List.length_zipIdx, List.length_take, List.length_drop, List.drop_take, List.drop_drop,
      hdropped, hstart, hskipped, hcount]

/-- **The range that is kept holds the rows that the bounds leave**, one after another. -/
theorem select_zipIdx (b : PageBounds) (h : start + slice.length ≤ maxUInt64) :
    b.select (slice.zipIdx start) =
      rowsWithin (b.keep ⟨start, start + slice.length⟩) slice start := by
  have hlower : start ≤ max start b.lower := Nat.le_max_left _ _
  have hbefore : (match b.before with
      | none => start + slice.length
      | some before => min (start + slice.length) before) ≤ start + slice.length := by
    split
    · exact Nat.le_refl _
    · exact Nat.min_le_left _ _
  rw [select, ← rowsWithin_whole, dropUpTo_rowsWithin h, dropFrom_rowsWithin,
    capFront_rowsWithin hlower (Nat.le_trans hbefore h), capBack_rowsWithin hlower ?_]
  · rfl
  · exact stop_le b ⟨start, start + slice.length⟩

end PageBounds

namespace Connection

variable {α : Type}

/-- **A page keeps the rows that the bounds leave of its slice**, one bound after another, each with
the cursor of its offset.  It fails only if the bounds are refused, and what is known of the size of
the whole set makes no difference. -/
theorem edges_ofSlice {slice : List α} {start : Nat} (h : start + slice.length ≤ maxUInt64)
    (request : PageRequest) (length : Option Nat) :
    (ofSlice slice request ⟨length, start⟩).map Connection.edges =
      request.bounds.map fun b =>
        (b.select (slice.zipIdx start)).map fun p => ⟨p.1, Cursor.ofOffset p.2⟩ := by
  have hedges : ∀ b : PageBounds, (within slice b ⟨length, start⟩).edges =
      (b.select (slice.zipIdx start)).map fun p => ⟨p.1, Cursor.ofOffset p.2⟩ := by
    intro b
    rw [PageBounds.select_zipIdx b h, ← edgesWithin_eq_map, within, addUpTo64_of_le h]
  simp only [ofSlice]
  rcases request.bounds with fault | b
  · rfl
  · exact congrArg Except.ok (hedges b)

theorem edges_ofSlice_lateSlice :
    3 + ["d", "e", "f", "g"].length ≤ maxUInt64 ∧
      (ofSlice ["d", "e", "f", "g"]
          ⟨some 2, some (.ofOffset 3), some 1, some (.ofOffset 100)⟩ ⟨some 2, 3⟩).map
          Connection.edges = .ok [⟨"f", .ofOffset 5⟩] :=
  ⟨by decide, (edges_ofSlice (by decide) _ _).trans rfl⟩

end Connection

end RelaySql
