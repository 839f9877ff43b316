import RelaySql.Proofs.Page.Policy
import RelaySql.Proofs.Page.Visits

/-!
# Pages — counted back from a cursor

A page with `last` and `before` alone is counted back from the cursor, and so is its window: it skips
to as many offsets before the cursor as the page may hold.  The rows at these offsets are the last
ones before the cursor if the cursor lies in the set, or at its end.  Behind a cursor further out
there are offsets without rows, and the window holds fewer rows than the page may, or none.

* `Connection.edges_countedBack`: the page holds the rows at the offsets before the cursor.
* `PageBounds.rtake_between`: the last rows between two cursors, as a range of offsets.
* `Resolver.edges_countedBack_iff`: the former are the latter exactly if the set reaches up to the
  cursor, or there is nothing to hold, or the window reaches down to `after`.
-/

namespace RelaySql

open Connection (rowsWithin rowsWithin_eq rowsWithin_whole)

variable {α : Type} {b : PageBounds} {last before : Nat}

theorem Connection.length_rowsWithin {lo start : Nat} (h : start ≤ lo) (hi : Nat) (rows : List α) :
    (rowsWithin ⟨lo, hi⟩ rows start).length = min (hi - lo) (rows.length - (lo - start)) := by
  rw [rowsWithin_eq h, List.length_zipIdx, List.length_take, List.length_drop]

/-- Ranges that hold the same offsets of a slice hold the same rows of it. -/
theorem Connection.rowsWithin_congr {range range' : Span} {rows : List α} {start : Nat}
    (h : ∀ o, start ≤ o → o < start + rows.length →
      (range.contains o = true ↔ range'.contains o = true)) :
    rowsWithin range rows start = rowsWithin range' rows start := by
  refine List.filter_congr fun p hp => ?_
  exact Bool.eq_iff_iff.mpr
    (h p.2 (List.le_snd_of_mem_zipIdx hp) (List.snd_lt_add_of_mem_zipIdx hp))

/-- Rows at other offsets make other edges. -/
theorem Connection.edge_injective :
    Function.Injective fun p : α × Nat => (⟨p.1, Cursor.ofOffset p.2⟩ : Edge α) :=
  fun _ _ h => Prod.ext (congrArg Edge.node h) (Cursor.ofOffset_injective (congrArg Edge.cursor h))

/-- **A page counted back from a cursor** holds the rows at the offsets before the cursor. -/
theorem Connection.edges_countedBack (hb : b.Fits) (hf : b.first = none) (hl : b.last = some last)
    (hbefore : b.before = some before) (rows : List α) (length : Option Nat) :
    (within ((rows.drop (PageWindow.ofBounds b).offset).take
        ((PageWindow.ofBounds b).size rows.length)) b
      ⟨length, (PageWindow.ofBounds b).offset⟩).edges =
      (rowsWithin ⟨max b.lower (before - last), before⟩ rows 0).map
        fun p => ⟨p.1, Cursor.ofOffset p.2⟩ := by
  obtain ⟨h₁, h₂⟩ := PageWindow.ofBounds_last (n := rows.length) hf hl hbefore
  have hwithin := hb.before before hbefore
  have hlower := PageBounds.lower_le hb
  have hsum : addUpTo64 (max b.lower (before - last))
      (min (before - max b.lower (before - last)) (rows.length - max b.lower (before - last))) =
      max b.lower (before - last) +
        min (before - max b.lower (before - last)) (rows.length - max b.lower (before - last)) := by
    refine addUpTo64_of_le ?_
    simp only [maxInt64, maxUInt64] at hwithin hlower ⊢
    omega
  rw [h₁, h₂, ← edgesWithin_eq_map]
  refine edgesWithin_slice fun o ho => ?_
  simp only [Span.contains_iff, PageBounds.keep, hf, hl, hbefore, List.length_take,
    List.length_drop, hsum]
  omega

/-- The offsets that `after` lets through. -/
theorem PageBounds.all_after_iff (hb : b.Fits) {o : Nat} :
    b.after.all (· < o) = true ↔ b.lower ≤ o := by
  rcases ha : b.after with _ | after
  · simp only [lower, ha, Option.all_none, Nat.zero_le]
  · have hfits := hb.after after ha
    simp only [lower, ha, Option.all_some, decide_eq_true_eq, addUpTo64, maxInt64, maxUInt64]
      at hfits ⊢
    omega

/-- The rows at the last offsets before a cursor are those of a range. -/
theorem PageBounds.filter_offsets (hb : b.Fits) (last before : Nat) (rows : List α) :
    (rows.zipIdx.filter fun p => b.after.all (· < p.2) && before - last ≤ p.2 && p.2 < before) =
      rowsWithin ⟨max b.lower (before - last), before⟩ rows 0 := by
  refine List.filter_congr fun p _ => ?_
  rw [Bool.eq_iff_iff]
  simp only [Span.contains_iff, Bool.and_eq_true, decide_eq_true_eq, all_after_iff hb]
  omega

/-- The rows between two cursors are those of a range that ends at the cursor or with the set. -/
theorem PageBounds.filter_between (hb : b.Fits) (before : Nat) (rows : List α) :
    (rows.zipIdx.filter fun p => b.after.all (· < p.2) && p.2 < before) =
      rowsWithin ⟨b.lower, min before rows.length⟩ rows 0 := by
  refine List.filter_congr fun p hp => ?_
  have hplace := List.snd_lt_add_of_mem_zipIdx hp
  rw [Bool.eq_iff_iff]
  simp only [Span.contains_iff, Bool.and_eq_true, decide_eq_true_eq, all_after_iff hb]
  omega

/-- **The last rows between two cursors** are those of a range that ends there too. -/
theorem PageBounds.rtake_between (hb : b.Fits) (hl : b.last = some last) (before : Nat)
    (rows : List α) :
    (rows.zipIdx.filter fun p => b.after.all (· < p.2) && p.2 < before).rtake last =
      rowsWithin ⟨max b.lower (min before rows.length - last), min before rows.length⟩ rows 0 := by
  have hcap : capBack b.last (rowsWithin ⟨b.lower, min before rows.length⟩ rows 0) = _ :=
    capBack_rowsWithin (Nat.zero_le _) (by omega) b
  rw [hl] at hcap
  rw [filter_between hb]
  exact hcap

/-- **The rows at the last offsets before a cursor are the last rows before it** exactly if the set
reaches up to the cursor, or there is nothing to hold, or the offsets reach down to `after`. -/
theorem PageBounds.rowsWithin_eq_rtake_iff (hb : b.Fits) (hl : b.last = some last) (before : Nat)
    (rows : List α) :
    rowsWithin ⟨max b.lower (before - last), before⟩ rows 0 =
        (rows.zipIdx.filter fun p => b.after.all (· < p.2) && p.2 < before).rtake last ↔
      before ≤ rows.length ∨ last = 0 ∨ rows.length ≤ b.lower ∨ before ≤ b.lower + last := by
  rw [rtake_between hb hl]
  constructor
  · intro h
    have hlength := congrArg List.length h
    rw [Connection.length_rowsWithin (Nat.zero_le _), Connection.length_rowsWithin (Nat.zero_le _)]
      at hlength
    omega
  · intro h
    refine Connection.rowsWithin_congr fun o _ ho => ?_
    simp only [Span.contains_iff]
    omega

namespace Resolver

variable {C : Type} {r : Resolver C} {args : Arguments} {context : C} {q : ComposedQuery}
  {totals : Bool} {rows : List Row}

/-- **Counting back from a cursor.**  Over a source that holds a list of rows, a field resolves to a page
of the rows at the `last` offsets before the cursor that lie behind `after`.  They are the last rows
between the cursors exactly if the list reaches up to the cursor, or `last` is zero, or no row lies
behind `after`, or no more than `last` offsets lie between the cursors. -/
theorem edges_countedBack_iff (hp : r.paginated = true)
    (hsource : r.source.Lists r.table totals rows) (hq : r.compose args context none = .ok q)
    (hb : q.request.bounds = .ok b) (hf : b.first = none) (hl : b.last = some last)
    (hbefore : b.before = some before) (t : Trace) :
    ∃ page, PageRequest.ofArguments args = .ok q.request ∧
      ((r.resolve args context).after t).1 = .ok (.connection page) ∧
      page.edges = (rows.zipIdx.filter fun p =>
          b.after.all (· < p.2) && before - last ≤ p.2 && p.2 < before).map
        (fun p => ⟨p.1, Cursor.ofOffset p.2⟩) ∧
      (page.edges = ((rows.zipIdx.filter fun p =>
            b.after.all (· < p.2) && p.2 < before).rtake last).map
          (fun p => ⟨p.1, Cursor.ofOffset p.2⟩) ↔
        before ≤ rows.length ∨ last = 0 ∨ rows.length ≤ b.lower ∨ before ≤ b.lower + last) := by
  obtain ⟨b', -, hr, hb', hfits, -⟩ := bounds_of_compose hq hp
  obtain rfl : b' = b := Except.ok.inj (hb'.symm.trans hb)
  obtain ⟨u, hpage⟩ := resolve_window hq hp hb hsource t
  have hedges := Connection.edges_countedBack hfits hf hl hbefore rows
    ((PageWindow.ofBounds b').learned totals rows.length)
  refine ⟨_, hr, congrArg Prod.fst hpage, ?_, ?_⟩
  · rw [hedges, PageBounds.filter_offsets hfits]
  · rw [hedges, ← PageBounds.rowsWithin_eq_rtake_iff hfits hl before rows]
    exact (List.map_injective_iff.mpr Connection.edge_injective).eq_iff

/-- The last three rows between two cursors, the second of them beyond the four rows. -/
def lastThree : Arguments :=
  [("last", .number (.whole 3)), ("after", .string (Cursor.ofOffset 1).text),
    ("before", .string (Cursor.ofOffset 5).text)]

theorem edges_countedBack_iff_lastThree :
    ∃ page, ((ofFourRows.resolve lastThree ()).after []).1 = .ok (.connection page) ∧
      page.edges = ((fourRows.zipIdx.filter fun p =>
          Option.all (· < p.2) (some 1) && p.2 < 5).rtake 3).map
        (fun p => ⟨p.1, Cursor.ofOffset p.2⟩) := by
  obtain ⟨q, hq, hbounds⟩ : ∃ q, ofFourRows.compose lastThree () none = .ok q ∧
      q.request.bounds = .ok ⟨none, some 1, some 3, some 5⟩ := ⟨_, rfl, rfl⟩
  have hlists : ofFourRows.source.Lists ofFourRows.table true fourRows :=
    Source.lists_ofTables rfl (by decide)
  obtain ⟨page, -, hpage, -, hiff⟩ := edges_countedBack_iff rfl hlists hq hbounds rfl rfl rfl []
  exact ⟨page, hpage, hiff.mpr (by decide)⟩

/-- The last two rows before a cursor far beyond the four rows. -/
def lastTwo : Arguments :=
  [("last", .number (.whole 2)), ("before", .string (Cursor.ofOffset 8).text)]

/-- Counting back from a cursor far beyond the set misses its last rows. -/
theorem edges_countedBack_differ_lastTwo :
    ofFourRows.source.Lists ofFourRows.table true fourRows ∧
    ∃ q page, ofFourRows.compose lastTwo () none = .ok q ∧
      q.request.bounds = .ok ⟨none, none, some 2, some 8⟩ ∧
      ((ofFourRows.resolve lastTwo ()).after []).1 = .ok (.connection page) ∧
      page.edges ≠ ((fourRows.zipIdx.filter fun p => p.2 < 8).rtake 2).map
        (fun p => ⟨p.1, Cursor.ofOffset p.2⟩) :=
  ⟨Source.lists_ofTables rfl (by decide), _, _, rfl, rfl, rfl, by decide⟩

end Resolver

end RelaySql
