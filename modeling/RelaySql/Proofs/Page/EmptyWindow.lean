import RelaySql.Proofs.Page.Answered
import RelaySql.Proofs.Page.Info
import RelaySql.Proofs.Page.Visits
import RelaySql.Proofs.Resolver.EmptyPages

/-!
# Pages — windows without rows

A window returns no row if it begins behind the set, or ends at a cursor that it begins at or behind.
No row tells the size of the set then, and the page tells what lies beyond it as if the set ended
where the window begins.

* `Connection.info_of_nothing_fetched`: what the page of no rows tells.
* `Connection.info_of_whole`: what the page of the whole set tells under the same bounds.
* `Resolver.emptyWindow_info_iff`: when they agree.
-/

namespace RelaySql

variable {b : PageBounds} {n : Nat}

theorem PageBounds.after_ne_none_iff (b : PageBounds) : b.after ≠ none ↔ 0 < b.lower := by
  rcases ha : b.after with _ | after
  · simp [lower, ha]
  · simp only [lower, ha, ne_eq, reduceCtorEq, not_false_eq_true, true_iff, addUpTo64, maxUInt64]
    omega

/-- **A window fetches nothing** only behind the set, or at a cursor or behind it. -/
theorem PageWindow.of_nothing_fetched (hb : b.Fits) (hnone : (ofBounds b).fetched n = 0) :
    n ≤ (ofBounds b).offset ∨ ∃ before ∈ b.before, before ≤ (ofBounds b).offset := by
  by_cases h : b.first ≠ none ∨ b.before = none
  · exact .inl (Nat.le_trans (le_lower_of_nothing_fetched hb h hnone) (lower_le_offset b))
  · push Not at h
    obtain ⟨hf, hbe⟩ := h
    obtain ⟨before, hbe⟩ := Option.ne_none_iff_exists'.mp hbe
    rw [hbe]
    rcases hl : b.last with _ | last <;> simp only [fetched, ofBounds, hf, hl, hbe, Option.map_some,
      Option.mem_some_iff, exists_eq_left'] at hnone ⊢ <;> omega

namespace Connection

variable {α : Type}

/-- **What the page of no rows tells**: rows follow if the cursor lies before the window, and rows
precede if the window skips any. -/
theorem info_of_nothing_fetched (hb : b.Fits) :
    ((within ([] : List α) b ⟨(PageWindow.ofBounds b).inferredLength 0,
        (PageWindow.ofBounds b).offset⟩).pageInfo.hasNextPage = true ↔
      ∃ before ∈ b.before, before < (PageWindow.ofBounds b).offset) ∧
    ((within ([] : List α) b ⟨(PageWindow.ofBounds b).inferredLength 0,
        (PageWindow.ofBounds b).offset⟩).pageInfo.hasPreviousPage = true ↔
      0 < (PageWindow.ofBounds b).offset) := by
  have hoffset : (PageWindow.ofBounds b).offset ≤ maxUInt64 :=
    Nat.le_trans (PageWindow.offset_le hb) (by decide)
  have hlower := PageWindow.lower_le_offset b
  have hset : max (((PageWindow.ofBounds b).inferredLength 0).getD 0)
      (PageWindow.ofBounds b).offset = (PageWindow.ofBounds b).offset := by
    rcases hlength : (PageWindow.ofBounds b).inferredLength 0 with _ | m
    · exact Nat.zero_max _
    · have hm := PageWindow.inferredLength_zero _ m hlength
      rw [addUpTo64_of_le (by omega), Nat.add_zero] at hm
      rw [hm, Option.getD_some, Nat.max_self]
  rw [pageInfo_within (by simpa using hoffset), List.length_nil, Nat.add_zero, hset]
  generalize (PageWindow.ofBounds b).offset = offset at hoffset hlower ⊢
  have hstop := b.stop_keep (s := ⟨offset, offset⟩) fun first _ => by
    simp only [addUpTo64]
    omega
  have hstart := b.start_keep ⟨offset, offset⟩
  simp only at hstop hstart
  simp only [info, decide_eq_true_eq, Bool.and_eq_true, hstop]
  constructor
  · rcases b.before with _ | before
    · simp
    · simp only [Option.getD_some, Option.mem_some_iff, exists_eq_left']
      omega
  · rw [hstart, hstop]
    rcases b.last with _ | last <;> simp only [Option.elim_none, Option.elim_some] <;> omega

/-- **What the page of the whole set tells** where the window fetches nothing. -/
theorem info_of_whole (hb : b.Fits) {rows : List α}
    (hnone : (PageWindow.ofBounds b).fetched rows.length = 0) :
    ((within rows b ⟨some rows.length, 0⟩).pageInfo.hasNextPage = true ↔
      ∃ before ∈ b.before, before < rows.length) ∧
    ((within rows b ⟨some rows.length, 0⟩).pageInfo.hasPreviousPage = true ↔
      0 < (PageWindow.ofBounds b).offset ∧ rows ≠ [] ∧
        (b.after ≠ none ∨ ∀ last ∈ b.last, last < rows.length)) := by
  have hlower := PageBounds.lower_le hb
  have hoffset := PageWindow.offset_le hb
  have hnothing := PageWindow.of_nothing_fetched hb hnone
  rw [PageBounds.after_ne_none_iff, ← List.length_pos_iff]
  simp only [within, info, Option.getD_some, decide_eq_true_eq, Bool.and_eq_true]
  generalize rows.length = n at hnone hnothing ⊢
  have hstart := b.start_keep ⟨0, addUpTo64 0 n⟩
  have hstop : (b.keep ⟨0, addUpTo64 0 n⟩).stop =
      min (addUpTo64 0 n) (b.before.getD (addUpTo64 0 n)) := by
    refine b.stop_keep fun first hf => ?_
    have hle := PageWindow.le_lower_of_nothing_fetched hb (.inl (by simp [Option.mem_def.mp hf])) hnone
    simp only [addUpTo64, maxInt64, maxUInt64] at hlower ⊢
    omega
  rw [hstart]
  generalize (b.keep ⟨0, addUpTo64 0 n⟩).stop = stop at hstop ⊢
  have hcount : b.last.elim 0 (stop - ·) ≤ stop := by
    rcases b.last with _ | last
    · exact Nat.zero_le _
    · exact Nat.sub_le _ _
  simp only [addUpTo64, maxInt64, maxUInt64] at hlower hoffset hstop ⊢
  constructor
  · rcases hbe : b.before with _ | before
    · have hle := PageWindow.le_lower_of_nothing_fetched hb (.inr hbe) hnone
      rw [hbe, Option.getD_none] at hstop
      simp only [Option.not_mem_none, false_and, exists_false, iff_false]
      omega
    · have hfits := hb.before before hbe
      rw [hbe, Option.getD_some] at hstop
      simp only [maxInt64, Option.mem_some_iff, exists_eq_left'] at hfits ⊢
      omega
  · rcases PageWindow.offset_eq b with ho | ⟨-, last, hl, before, hbe, ho⟩
    · -- nothing is counted back to behind `after`
      have hle : stop ≤ b.lower := by
        rcases hnothing with hle | ⟨before, hbe, hle⟩
        · omega
        · rw [Option.mem_def.mp hbe, Option.getD_some] at hstop
          omega
      rw [ho]
      constructor
      · rintro ⟨h₁, h₂⟩
        exact ⟨by omega, by omega, .inl (by omega)⟩
      · rintro ⟨h₁, h₂, -⟩
        exact ⟨by omega, by omega⟩
    · have hfits := hb.before before hbe
      rw [Option.mem_def.mp hbe, Option.getD_some] at hstop
      rw [ho, Option.mem_def.mp hl]
      simp only [maxInt64, Option.elim_some, Option.mem_some_iff, forall_eq'] at hfits ⊢
      omega

end Connection

/-! ### The page of an empty window, against the page of the whole set -/

namespace Resolver

variable {C : Type} {r : Resolver C} {args : Arguments} {context : C} {q : ComposedQuery}
  {rows : List Row}

/-- The page of a window that fetches nothing. -/
theorem resolve_of_nothing_fetched (hp : r.paginated = true)
    (hsource : r.source.Lists r.table true (rows.map Row.visible))
    (hq : r.compose args context none = .ok q) (hb : q.request.bounds = .ok b)
    (hnil : Source.page q.statement rows = []) (t : Trace) :
    (PageWindow.ofBounds b).fetched rows.length = 0 ∧
      ((r.resolve args context).after t).1 = .ok (.connection (Connection.within [] b
        ⟨(PageWindow.ofBounds b).inferredLength 0, (PageWindow.ofBounds b).offset⟩)) := by
  obtain ⟨b', s, -, hb', hfits, hs⟩ := bounds_of_compose hq hp
  obtain rfl : b' = b := Except.ok.inj (hb'.symm.trans hb)
  rw [hs] at hnil
  have hnone : (PageWindow.ofBounds b').fetched rows.length = 0 := by
    rw [← PageWindow.length_page s, hnil, List.length_nil]
  have hslice := PageWindow.shown_page hfits s (rows.map Row.visible)
  rw [Source.page_map, hnil, List.map_nil] at hslice
  have hshown : (PageWindow.ofBounds b').shown ([] : List Row) = [] :=
    List.prefix_nil.mp ((PageWindow.ofBounds b').isPrefix_shown [])
  obtain ⟨u, hpage⟩ := resolve_window hq hp hb hsource t
  rw [← hslice, hshown, PageWindow.learned, List.length_map, hnone, if_neg (by simp)] at hpage
  exact ⟨hnone, congrArg Prod.fst hpage⟩

/-- **The page of an empty window tells of rows beyond it what the page of the whole set tells** exactly
under two conditions.  Of the rows behind: the cursor `before`, if it is given, lies before both the
beginning of the window and the end of the set, or before neither.  Of the rows before: the window skips
nothing, or the set has rows, and `after` is given or `last` does not reach over all of them. -/
theorem emptyWindow_info_iff (hp : r.paginated = true)
    (hsource : r.source.Lists r.table true (rows.map Row.visible))
    (hq : r.compose args context none = .ok q) (hb : q.request.bounds = .ok b)
    (hnil : Source.page q.statement rows = []) (t : Trace) :
    ∃ page whole, PageRequest.ofArguments args = .ok q.request ∧
      ((r.resolve args context).after t).1 = .ok (.connection page) ∧
      Connection.ofList rows q.request = .ok whole ∧
      (page.pageInfo.hasNextPage = whole.pageInfo.hasNextPage ↔
        ∀ before ∈ b.before, before < q.statement.offset.getD 0 ↔ before < rows.length) ∧
      (page.pageInfo.hasPreviousPage = whole.pageInfo.hasPreviousPage ↔
        q.statement.offset.getD 0 = 0 ∨
          rows ≠ [] ∧ (b.after ≠ none ∨ ∀ last ∈ b.last, last < rows.length)) := by
  obtain ⟨b', s, hr, hb', hfits, hs⟩ := bounds_of_compose hq hp
  obtain rfl : b' = b := Except.ok.inj (hb'.symm.trans hb)
  obtain ⟨hnone, hpage⟩ := resolve_of_nothing_fetched hp hsource hq hb hnil t
  have hwhole : Connection.ofList rows q.request =
      .ok (Connection.within rows b' ⟨some rows.length, 0⟩) := by
    simp only [Connection.ofList, Connection.ofSlice, hb]
    rfl
  obtain ⟨hnext, hprevious⟩ := Connection.info_of_nothing_fetched (α := Row) hfits
  obtain ⟨hnext', hprevious'⟩ := Connection.info_of_whole hfits hnone
  refine ⟨_, _, hr, hpage, hwhole, ?_, ?_⟩
  · rw [Bool.eq_iff_iff, hnext, hnext', hs, windowed_offset]
    rcases b'.before with _ | before <;> simp
  · rw [Bool.eq_iff_iff, hprevious, hprevious', hs, windowed_offset, Nat.pos_iff_ne_zero]
    by_cases hzero : (PageWindow.ofBounds b').offset = 0 <;> simp [hzero]

/-- Two cursors that cross, the first of them beyond the four rows. -/
def crossed : Arguments :=
  [("after", .string (Cursor.ofOffset 10).text), ("before", .string (Cursor.ofOffset 2).text)]

theorem emptyWindow_info_iff_crossed :
    ∃ page whole request, PageRequest.ofArguments crossed = .ok request ∧
      ((ofFourRows.resolve crossed ()).after []).1 = .ok (.connection page) ∧
      Connection.ofList fourRows request = .ok whole ∧
      page.pageInfo.hasNextPage = whole.pageInfo.hasNextPage ∧
      page.pageInfo.hasPreviousPage = whole.pageInfo.hasPreviousPage := by
  obtain ⟨q, hq, hbounds, hoffset, hnil⟩ : ∃ q, ofFourRows.compose crossed () none = .ok q ∧
      q.request.bounds = .ok ⟨none, some 10, none, some 2⟩ ∧ q.statement.offset = some 11 ∧
      Source.page q.statement fourRows = [] := ⟨_, rfl, rfl, rfl, rfl⟩
  have hlists : ofFourRows.source.Lists ofFourRows.table true (fourRows.map Row.visible) :=
    Source.lists_visible_ofTables rfl (by decide)
  obtain ⟨page, whole, hr, hpage, hwhole, hnext, hprevious⟩ :=
    emptyWindow_info_iff rfl hlists hq hbounds hnil []
  refine ⟨page, whole, q.request, hr, hpage, hwhole, hnext.mpr ?_, hprevious.mpr ?_⟩
  · rw [hoffset]
    decide
  · exact .inr ⟨by decide, .inl (by simp)⟩

/-- The last two rows before the first. -/
def beforeFirst : Arguments :=
  [("last", .number (.whole 2)), ("before", .string (Cursor.ofOffset 0).text)]

/-- A field over a source that holds no rows. -/
def ofNoRows : Resolver Unit := ofFourRows.withSource (.ofTables "memory" [("item", [])] true)

/-- Before the first row the page of an empty window does not tell of the rows behind it, and behind a
cursor into a set without rows it tells of rows before it. -/
theorem emptyWindow_info_differs :
    ofFourRows.source.Lists ofFourRows.table true (fourRows.map Row.visible) ∧
    ofNoRows.source.Lists ofNoRows.table true (([] : List Row).map Row.visible) ∧
    (∃ q page whole, ofFourRows.compose beforeFirst () none = .ok q ∧
      Source.page q.statement fourRows = [] ∧
      ((ofFourRows.resolve beforeFirst ()).after []).1 = .ok (.connection page) ∧
      Connection.ofList fourRows q.request = .ok whole ∧
      page.pageInfo.hasNextPage = false ∧ whole.pageInfo.hasNextPage = true) ∧
    ∃ q page whole, ofNoRows.compose behindFirst () none = .ok q ∧
      Source.page q.statement ([] : List Row) = [] ∧
      ((ofNoRows.resolve behindFirst ()).after []).1 = .ok (.connection page) ∧
      Connection.ofList ([] : List Row) q.request = .ok whole ∧
      page.pageInfo.hasPreviousPage = true ∧ whole.pageInfo.hasPreviousPage = false :=
  ⟨Source.lists_visible_ofTables rfl (by decide), Source.lists_visible_ofTables rfl (by decide),
    ⟨_, _, _, rfl, rfl, rfl, rfl, rfl, rfl⟩, _, _, _, rfl, rfl, rfl, rfl, rfl, rfl⟩

end Resolver

end RelaySql
