import RelaySql.Proofs.Page.Fetched

/-!
# Pages — what a window learns of the size of the set

The rows that a window fetches tell the size of the set if the source counts them.  If it does not, the
size is inferred from their number.  A page counted from the front fetches a probe behind its rows, and
one without a cursor to end at fetches all rows behind `after`: either learns what it needs to know of
the size, whatever the source counts.

* `PageWindow.ofBounds_probed`: the windows of these pages.
* `PageWindow.inferredLength_of_probed`: what is inferred from the rows that they fetch.
* `Resolver.resolve_window`: the page of a field is that of its window, in a set of the size that is
  learned.
-/

namespace RelaySql

namespace PageWindow

variable {b : PageBounds} {n : Nat}

/-- How many of `n` rows the window fetches. -/
def fetched (w : PageWindow) (n : Nat) : Nat :=
  match w.limit with
  | none => n - w.offset
  | some limit => min limit (n - w.offset)

theorem length_page {α : Type} (s : Statement) (w : PageWindow) (rows : List α) :
    (Source.page (Resolver.windowed s w) rows).length = w.fetched rows.length := by
  simp only [Source.page, Resolver.windowed_offset, fetched]
  simp only [Resolver.windowed]
  cases w.limit <;> simp

/-- A window that fetches something begins within the set. -/
theorem offset_lt_of_fetched {w : PageWindow} (h : w.fetched n ≠ 0) : w.offset < n := by
  simp only [fetched] at h
  split at h <;> omega

/-! ### Windows with a probe, and windows on all rows -/

section Probed

variable (hb : b.Fits) (h : b.first ≠ none ∨ b.before = none)

include hb h

/-- A page counted from the front fetches its probe, and one without a cursor to end at fetches all rows
that `after` lets through. -/
theorem ofBounds_probed : ofBounds b = ⟨b.lower, none, none⟩ ∨
    ∃ size, ofBounds b = ⟨b.lower, some (size + 1), some size⟩ := by
  rcases hf : b.first with _ | first
  · have hbe : b.before = none := h.resolve_left fun hne => hne hf
    refine .inl ?_
    rcases hl : b.last with _ | last <;> simp only [ofBounds, hf, hl, hbe, Option.map_none]
  · have hfits := hb.first first hf
    have hprobe : ∀ size, size ≤ first → addUpTo64 size 1 = size + 1 := fun size hle =>
      addUpTo64_of_le (by simp only [maxInt64, maxUInt64] at hfits ⊢; omega)
    refine .inr ?_
    rcases hbe : b.before with _ | before
    · exact ⟨first, by simp only [ofBounds, hf, hbe, Option.map_none, hprobe _ (Nat.le_refl _)]⟩
    · exact ⟨min (before - b.lower) first, by
        simp only [ofBounds, hf, hbe, Option.map_some, hprobe _ (Nat.min_le_right _ _)]⟩

theorem offset_of_probed : (ofBounds b).offset = b.lower := by
  rcases ofBounds_probed hb h with hw | ⟨size, hw⟩ <;> rw [hw]

/-- Such a window fetches nothing only behind the set. -/
theorem le_lower_of_nothing_fetched (hnone : (ofBounds b).fetched n = 0) : n ≤ b.lower := by
  rcases ofBounds_probed hb h with hw | ⟨size, hw⟩ <;> rw [hw] at hnone <;>
    simp only [fetched] at hnone <;> omega

/-- **What is inferred from the rows fetched**, with a probe among them or all that there are: the size
of the set, or that one row at least lies behind the page. -/
theorem inferredLength_of_probed (hlower : b.lower ≤ n) (hn : n ≤ maxUInt64) :
    (ofBounds b).inferredLength ((ofBounds b).fetched n) =
      some (min n (b.lower + (ofBounds b).size n + 1)) := by
  rcases ofBounds_probed hb h with hw | ⟨size, hw⟩
  · have hsize : (ofBounds b).size n = n := by rw [hw]; rfl
    have hinferred : (ofBounds b).inferredLength ((ofBounds b).fetched n) =
        some (addUpTo64 b.lower (n - b.lower)) := by rw [hw]; rfl
    rw [hsize, hinferred, addUpTo64_of_le (by omega)]
    congr 1
    omega
  · have hsize : (ofBounds b).size n = size := by rw [hw]; rfl
    have hfetched : (ofBounds b).fetched n = min (size + 1) (n - b.lower) := by rw [hw]; rfl
    rw [hsize, hfetched, hw]
    simp only [inferredLength]
    by_cases hprobed : size < n - b.lower
    · have hpage : addUpTo64 b.lower size = b.lower + size := addUpTo64_of_le (by omega)
      rw [if_pos (by omega), hpage, addUpTo64_of_le (by omega)]
      congr 1
      omega
    · rw [if_neg (by omega), if_neg (by omega), addUpTo64_of_le (by omega)]
      congr 1
      omega

end Probed

/-- The size of a set of `n` rows as it is learned from the rows that a window fetches: the first of them
tells it, if the source counts them, or else it is inferred from their number. -/
def learned (w : PageWindow) (counts : Bool) (n : Nat) : Option Nat :=
  if counts = true ∧ w.fetched n ≠ 0 then some n else w.inferredLength (w.fetched n)

end PageWindow

/-! ### Fields over a source of one list -/

namespace Resolver

variable {C : Type} {r : Resolver C} {args : Arguments} {context : C} {q : ComposedQuery}

/-- The bounds of a field served in pages. -/
theorem bounds_of_compose {parents : Option ParentBatch}
    (hq : r.compose args context parents = .ok q) (hp : r.paginated = true) :
    ∃ b s, PageRequest.ofArguments args = .ok q.request ∧ q.request.bounds = .ok b ∧ b.Fits ∧
      q.statement = windowed s (.ofBounds b) := by
  obtain ⟨join, filter, request, b, -, hr, hrb, rfl⟩ := compose_paginated hq hp
  exact ⟨b, _, hr, hrb, PageRequest.bounds_fit hr hrb, rfl⟩

/-- **The page of a source's rows** is that of the rows its window shows, in a set whose size is learned
from the rows it fetches. -/
theorem resolve_window {b : PageBounds} {totals : Bool} {rows : List Row}
    (hq : r.compose args context none = .ok q) (hp : r.paginated = true)
    (hb : q.request.bounds = .ok b) (hsource : r.source.Lists r.table totals rows) (t : Trace) :
    ∃ u, (r.resolve args context).after t = (.ok (.connection (Connection.within
        ((rows.drop (PageWindow.ofBounds b).offset).take
          ((PageWindow.ofBounds b).size rows.length)) b
        ⟨(PageWindow.ofBounds b).learned totals rows.length,
          (PageWindow.ofBounds b).offset⟩)), u) := by
  obtain ⟨answer, u, hreturned, hresult⟩ := resolve_of_lists hq hsource t
  obtain ⟨join, filter, request, b', -, hr, hrb, rfl⟩ := compose_paginated hq hp
  obtain rfl : b' = b := Except.ok.inj (hrb.symm.trans hb)
  have hpage := ComposedQuery.finish_fetched (PageRequest.bounds_fit hr hrb) hrb
    (r.base join filter) (Source.map_visible_of_returnedAs hreturned)
    (Source.total_of_mem_returned hreturned)
  have hfetched : answer.length = (PageWindow.ofBounds b').fetched rows.length := by
    rw [← PageWindow.length_page (r.base join filter), hreturned.length_eq]
  have hlearned : ((if answer = [] then none else
      if (windowed (r.base join filter) (.ofBounds b')).countTotal && totals then some rows.length
      else none) <|> (PageWindow.ofBounds b').inferredLength answer.length) =
      (PageWindow.ofBounds b').learned totals rows.length := by
    rw [PageWindow.learned, ← hfetched]
    by_cases hnil : answer = [] <;> cases totals <;> simp [hnil, windowed]
  rw [hpage, hlearned] at hresult
  exact ⟨u, hresult⟩

end Resolver

end RelaySql
