import RelaySql.Proofs.Page.Fetched
import RelaySql.Proofs.Run

/-!
# Pages — the page of a source is the page of its rows

A field served in pages fetches a window only.  Over a source that holds a list of rows, its page is
the page that the same arguments ask of the whole list.

* `Connection.edges_within_window`: the edges of a window are the edges of the whole set.
* `Connection.within_window`: so is the page info, when the window fetched a row that tells the size
  of the set.
* `Resolver.resolve_eq_ofList`: both, end to end.
-/

namespace RelaySql

namespace Connection

variable {α : Type} {b : PageBounds}

/-- What the window keeps of a set that has rows in it. -/
theorem keep_window (hb : b.Fits) {n : Nat} (hn : n ≤ maxInt64) (hx : ¬ b.CountsBackPast n)
    (ho : (PageWindow.ofBounds b).offset < n)
    (hs : b.first = none → 0 < (PageWindow.ofBounds b).size n) :
    b.keep ⟨(PageWindow.ofBounds b).offset, addUpTo64 (PageWindow.ofBounds b).offset
      (min ((PageWindow.ofBounds b).size n) (n - (PageWindow.ofBounds b).offset))⟩ =
      b.keep ⟨0, addUpTo64 0 n⟩ := by
  rw [addUpTo64_of_le_maxInt64 (by omega), addUpTo64_of_le_maxInt64 (by omega), Nat.zero_add]
  exact PageWindow.keep_shown hb hx ho hs

/-- **The edges of a window are the edges of the whole set.** -/
theorem edges_within_window (hb : b.Fits) {xs : List α} (hn : xs.length ≤ maxInt64)
    (hx : ¬ b.CountsBackPast xs.length) (length : Option Nat) :
    (within ((xs.drop (PageWindow.ofBounds b).offset).take ((PageWindow.ofBounds b).size xs.length))
      b ⟨length, (PageWindow.ofBounds b).offset⟩).edges =
      (within xs b ⟨some xs.length, 0⟩).edges := by
  simp only [within, List.length_take, List.length_drop]
  refine edgesWithin_slice fun o ho => ?_
  have hwhole : addUpTo64 0 xs.length = xs.length := by
    rw [addUpTo64_of_le_maxInt64 (by omega), Nat.zero_add]
  constructor
  · rintro ⟨h₁, h₂, hk⟩
    rwa [keep_window hb hn hx (by omega) fun _ => by omega] at hk
  · intro hk
    obtain ⟨h₁, h₂⟩ := PageWindow.mem_of_keep hb hx (by rwa [hwhole] at hk)
    rw [keep_window hb hn hx (by omega) fun _ => by omega]
    exact ⟨h₁, h₂, hk⟩

/-- **The page of a window is the page of the whole set**, when the window has fetched a row of it
and the size of the set is known. -/
theorem within_window (hb : b.Fits) {xs : List α} (hn : xs.length ≤ maxInt64)
    (hx : ¬ b.CountsBackPast xs.length) (ho : (PageWindow.ofBounds b).offset < xs.length)
    (hs : b.first = none → 0 < (PageWindow.ofBounds b).size xs.length) :
    within ((xs.drop (PageWindow.ofBounds b).offset).take ((PageWindow.ofBounds b).size xs.length))
      b ⟨some xs.length, (PageWindow.ofBounds b).offset⟩ =
      within xs b ⟨some xs.length, 0⟩ := by
  have hedges := edges_within_window hb hn hx (some xs.length)
  have hupper : ∀ k c, k + c ≤ xs.length → max xs.length (addUpTo64 k c) = xs.length := by
    intro k c h
    simp only [addUpTo64]
    omega
  simp only [within, List.length_take, List.length_drop, Option.getD_some] at hedges ⊢
  rw [hedges, keep_window hb hn hx ho hs, hupper _ _ (by omega), hupper _ _ (by omega)]

end Connection

namespace PageWindow

/-- A window that fetched anything starts within the set, and shows something of it unless it is
counted from the front. -/
theorem of_page_ne_nil {α : Type} {b : PageBounds} {s : Statement} {rows : List α}
    (h : Source.page (Resolver.windowed s (ofBounds b)) rows ≠ []) :
    (ofBounds b).offset < rows.length ∧
      (b.first = none → 0 < (ofBounds b).size rows.length) := by
  simp only [Source.page, Resolver.windowed_offset] at h
  simp only [Resolver.windowed] at h
  have hlt : (ofBounds b).offset < rows.length := by
    by_contra hge
    rw [List.drop_eq_nil_of_le (by omega)] at h
    split at h <;> simp at h
  refine ⟨hlt, fun hf => ?_⟩
  -- only a page counted from the front has a probe
  have hps : (ofBounds b).pageSize = none := by
    rcases hl : b.last with _ | last <;> rcases hbe : b.before with _ | before <;>
      simp [ofBounds, hf, hl, hbe]
  simp only [size, hps]
  rcases hl : (ofBounds b).limit with _ | limit
  · simpa using Nat.zero_lt_of_lt hlt
  · rw [hl] at h
    rcases Nat.eq_zero_or_pos limit with rfl | hpos
    · simp at h
    · simpa using hpos

end PageWindow

namespace Resolver

variable {C : Type}

/-- **End-to-end pagination is exact.**  A field served in pages, over a source that holds a list of
rows, resolves to a page whose edges are those that the same arguments ask of the whole list, unless
the page is counted back from a cursor beyond the list.  Its page info is the same too, when the
source reports totals and the window fetched a row. -/
theorem resolve_eq_ofList {r : Resolver C} {args : Arguments} {context : C} {q : ComposedQuery}
    {totals : Bool} {rows : List Row} (hp : r.paginated = true)
    (hsource : r.source.Lists r.table totals rows) (hn : rows.length ≤ maxInt64)
    (hq : r.compose args context none = .ok q)
    (hx : ∀ b, q.request.bounds = .ok b → ¬ b.CountsBackPast rows.length) (t : Trace) :
    ∃ page whole, PageRequest.ofArguments args = .ok q.request ∧
      ((r.resolve args context).after t).1 = .ok (.connection page) ∧
      Connection.ofList rows q.request = .ok whole ∧
      page.edges = whole.edges ∧
      (totals = true → Source.page q.statement rows ≠ [] → page.pageInfo = whole.pageInfo) := by
  obtain ⟨join, filter, request, b, hj, hr, hrb, rfl⟩ := compose_paginated hq hp
  cases hj
  have hb := PageRequest.bounds_fit hr hrb
  have hx := hx b hrb
  obtain ⟨answer, hanswer, hreturned⟩ := hsource (t.statements r.source.name)
    (windowed (r.base none filter) (.ofBounds b)) rfl rfl
  have hvisible := Source.map_visible_of_returnedAs hreturned
  have hpage := ComposedQuery.finish_fetched hb hrb (r.base none filter) hvisible
    (Source.total_of_mem_returned hreturned)
  have hwhole : Connection.ofList rows request =
      .ok (Connection.within rows b ⟨some rows.length, 0⟩) := by
    simp only [Connection.ofList, Connection.ofSlice, hrb]
    rfl
  have hresult := congrArg Prod.fst (resolve_after hq t)
  simp only [hanswer] at hresult
  refine ⟨_, _, hr, hresult.trans hpage, hwhole, Connection.edges_within_window hb hn hx _, ?_⟩
  rintro rfl hne
  obtain ⟨ho, hs⟩ := PageWindow.of_page_ne_nil hne
  have hfetched : answer ≠ [] := by
    rintro rfl
    exact hne hvisible.symm
  simp only [hfetched, if_false]
  exact congrArg Connection.pageInfo (Connection.within_window hb hn hx ho hs)

/-- Four rows in memory, served in pages. -/
def fourRows : List Row :=
  [[("id", .ofNat 10)], [("id", .ofNat 11)], [("id", .ofNat 12)], [("id", .ofNat 13)]]

/-- A field that serves them in pages. -/
def ofFourRows : Resolver Unit :=
  ⟨"item", none, none, [⟨"id", .ascending⟩], true, .ofTables "memory" [("item", fourRows)] true⟩

/-- The last of the first two rows between two cursors. -/
def betweenCursors : Arguments :=
  [("first", .number (.whole 2)), ("last", .number (.whole 1)),
    ("after", .string (Cursor.ofOffset 0).text), ("before", .string (Cursor.ofOffset 3).text)]

theorem resolve_eq_ofList_betweenCursors :
    ∃ page whole request, PageRequest.ofArguments betweenCursors = .ok request ∧
      ((ofFourRows.resolve betweenCursors ()).after []).1 = .ok (.connection page) ∧
      Connection.ofList fourRows request = .ok whole ∧ page = whole := by
  have hq : ∃ q, ofFourRows.compose betweenCursors () none = .ok q ∧
      q.request.bounds = .ok ⟨some 2, some 0, some 1, some 3⟩ ∧
      Source.page q.statement fourRows ≠ [] := ⟨_, rfl, rfl, by decide⟩
  obtain ⟨q, hq, hbounds, hne⟩ := hq
  have hlists : ofFourRows.source.Lists ofFourRows.table true fourRows :=
    Source.lists_ofTables rfl (by decide)
  obtain ⟨page, whole, hr, hpage, hwhole, hedges, hinfo⟩ := resolve_eq_ofList rfl hlists
    (by decide) hq (fun b hb hx => by rw [hbounds] at hb; cases hb; cases hx.1) []
  refine ⟨page, whole, q.request, hr, hpage, hwhole, ?_⟩
  cases page
  cases whole
  rw [Connection.mk.injEq]
  exact ⟨hedges, hinfo rfl hne⟩

end Resolver

end RelaySql
