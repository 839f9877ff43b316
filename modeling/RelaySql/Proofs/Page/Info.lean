import RelaySql.Proofs.Page.Policy

/-!
# Pages — what a page tells of its rows

What a page tells is computed from the ends of the range that it keeps.  A range that holds a row
begins at its first row and ends behind its last, so the page tells of its rows; a range without rows
may lie anywhere, before the slice or behind it.

* `Connection.start_of_head?_rowsWithin`, `Connection.stop_of_getLast?_rowsWithin`: the ends of a range
  with rows.
* `Connection.describes_within`: a page with rows describes them (`PageInfo.Describes`).
* `Connection.within_nil`: a page of a set without rows is the empty page, whatever the bounds.
* `Connection.describes_ofSlice`: both, for every page of a slice.
-/

namespace RelaySql

/-- What is told of a page whose rows lie at the offsets from `first` to `last`, in a set that reaches
up to `upper`. -/
structure PageInfo.Describes (info : PageInfo) (first last upper : Nat) : Prop where
  startCursor : info.startCursor = some (Cursor.ofOffset first)
  endCursor : info.endCursor = some (Cursor.ofOffset last)
  hasPreviousPage : info.hasPreviousPage = true ↔ 0 < first
  hasNextPage : info.hasNextPage = true ↔ last + 1 < upper

namespace Connection

variable {α : Type} {slice : List α} {start : Nat} {range : Span}

/-- The first row of a range lies where the range begins. -/
theorem start_of_head?_rowsWithin (h : start ≤ range.start) {p : α × Nat}
    (hp : p ∈ (rowsWithin range slice start).head?) : p.2 = range.start := by
  rw [rowsWithin_eq h range.stop, List.head?_zipIdx] at hp
  obtain ⟨row, -, rfl⟩ := Option.map_eq_some_iff.mp hp
  rfl

/-- The last row of a range lies right before its end. -/
theorem stop_of_getLast?_rowsWithin (h : start ≤ range.start)
    (hstop : range.stop ≤ start + slice.length) {p : α × Nat}
    (hp : p ∈ (rowsWithin range slice start).getLast?) : p.2 + 1 = range.stop := by
  rw [rowsWithin_eq h range.stop, List.getLast?_zipIdx] at hp
  obtain ⟨row, hrow, rfl⟩ := Option.map_eq_some_iff.mp hp
  have hlength := List.length_pos_of_mem (List.mem_of_getLast? hrow)
  simp only [List.length_take, List.length_drop] at hlength ⊢
  omega

variable {b : PageBounds} {length : Option Nat}

/-- The rows that a page keeps are its edges. -/
theorem edges_within_select (h : start + slice.length ≤ maxUInt64) :
    (within slice b ⟨length, start⟩).edges =
      (b.select (slice.zipIdx start)).map fun p => ⟨p.1, Cursor.ofOffset p.2⟩ := by
  rw [PageBounds.select_zipIdx b h, ← edgesWithin_eq_map, within, addUpTo64_of_le h]

/-- What a page tells is told of the range that it keeps, in a set that reaches up to its length, if it
is known, and beyond the slice in any case. -/
theorem pageInfo_within (h : start + slice.length ≤ maxUInt64) :
    (within slice b ⟨length, start⟩).pageInfo =
      info (b.keep ⟨start, start + slice.length⟩) (max (length.getD 0) (start + slice.length))
        (within slice b ⟨length, start⟩).edges := by
  have hupper : max (length.getD (start + slice.length)) (start + slice.length) =
      max (length.getD 0) (start + slice.length) := by
    rcases length with _ | n
    · simp
    · rfl
  simp only [within, addUpTo64_of_le h, hupper]

/-- **A page with rows describes them.** -/
theorem describes_within (h : start + slice.length ≤ maxUInt64) {first last : α × Nat}
    (hfirst : first ∈ (b.select (slice.zipIdx start)).head?)
    (hlast : last ∈ (b.select (slice.zipIdx start)).getLast?) :
    (within slice b ⟨length, start⟩).pageInfo.Describes first.2 last.2
      (max (length.getD 0) (start + slice.length)) := by
  have hedges : (within slice b ⟨length, start⟩).edges = _ := edges_within_select h
  rw [PageBounds.select_zipIdx b h] at hfirst hlast hedges
  have hstart : start ≤ _ := b.start_le_start ⟨start, start + slice.length⟩
  have hstop : _ ≤ start + slice.length := b.stop_le ⟨start, start + slice.length⟩
  have hlo := start_of_head?_rowsWithin hstart hfirst
  have hhi := stop_of_getLast?_rowsWithin hstart hstop hlast
  -- the last row lies in the range, so the range is not crossed
  have hin := Span.contains_iff.mp (List.mem_filter.mp (List.mem_of_getLast? hlast)).2
  rw [pageInfo_within h, hedges]
  refine ⟨?_, ?_, ?_, ?_⟩
  · simp only [info, List.head?_map, Option.mem_def.mp hfirst, Option.map_some]
  · simp only [info, List.getLast?_map, Option.mem_def.mp hlast, Option.map_some]
  · simp only [info, Bool.and_eq_true, decide_eq_true_eq]
    omega
  · simp only [info, decide_eq_true_eq]
    omega

/-- **A page of a set without rows** is the empty page. -/
theorem within_nil (hlength : length.getD 0 = 0) :
    within ([] : List α) b ⟨length, 0⟩ = .empty := by
  have hedges : (within ([] : List α) b ⟨length, 0⟩).edges = [] := rfl
  have hinfo : (within ([] : List α) b ⟨length, 0⟩).pageInfo = _ := pageInfo_within (Nat.zero_le _)
  rw [hedges, List.length_nil, hlength] at hinfo
  calc within ([] : List α) b ⟨length, 0⟩
      = ⟨(within ([] : List α) b ⟨length, 0⟩).edges,
          (within ([] : List α) b ⟨length, 0⟩).pageInfo⟩ := rfl
    _ = .empty := by
      rw [hedges, hinfo]
      simp [info, empty]

/-- **A page describes the rows it keeps.** -/
theorem describes_ofSlice {request : PageRequest} {page : Connection α}
    (h : start + slice.length ≤ maxUInt64)
    (hpage : ofSlice slice request ⟨length, start⟩ = .ok page) :
    ∃ b rows, request.bounds = .ok b ∧ rows = b.select (slice.zipIdx start) ∧
      page.edges = rows.map (fun p => ⟨p.1, Cursor.ofOffset p.2⟩) ∧
      (∀ first ∈ rows.head?, ∀ last ∈ rows.getLast?,
        page.pageInfo.Describes first.2 last.2 (max (length.getD 0) (start + slice.length))) ∧
      (page.edges = [] → page.pageInfo.startCursor = none ∧ page.pageInfo.endCursor = none) ∧
      (slice = [] → start = 0 → length.getD 0 = 0 → page = .empty) := by
  obtain ⟨b, hb, hpage⟩ := Except.bind_eq_ok.mp hpage
  cases hpage
  refine ⟨b, _, hb, rfl, edges_within_select h, fun first hfirst last hlast =>
    describes_within h hfirst hlast, fun hnil => ?_, ?_⟩
  · rw [pageInfo_within h, hnil]
    exact ⟨rfl, rfl⟩
  · rintro rfl rfl hlength
    exact within_nil hlength

/-- A slice that reaches beyond the length it was given: two of its rows are kept, and a third
follows. -/
theorem describes_ofSlice_beyondLength :
    3 + ["d", "e", "f", "g"].length ≤ maxUInt64 ∧
      ∃ page, ofSlice ["d", "e", "f", "g"]
          ⟨some 2, some (.ofOffset 3), none, some (.ofOffset 100)⟩ ⟨some 2, 3⟩ = .ok page ∧
        page.nodes = ["e", "f"] ∧ page.pageInfo.Describes 4 5 7 := by
  obtain ⟨page, hpage, hnodes⟩ : ∃ page, ofSlice ["d", "e", "f", "g"]
      ⟨some 2, some (.ofOffset 3), none, some (.ofOffset 100)⟩ ⟨some 2, 3⟩ = .ok page ∧
      page.nodes = ["e", "f"] := ⟨_, rfl, rfl⟩
  obtain ⟨b, rows, hb, rfl, -, hdescribes, -⟩ := describes_ofSlice (by decide) hpage
  obtain rfl := Except.ok.inj hb
  exact ⟨by decide, page, hpage, hnodes, hdescribes ("e", 4) rfl ("f", 5) rfl⟩

end Connection

end RelaySql
