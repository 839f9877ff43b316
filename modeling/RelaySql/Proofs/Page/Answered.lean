import Mathlib.Data.List.Infix
import RelaySql.Proofs.Page.Edges
import RelaySql.Proofs.Page.Fetched
import RelaySql.Proofs.Run

/-!
# Pages — whatever the source answers, a page respects its request

A source may return too many rows or too few, ignore the window, or contradict itself about the
size of the set.  Of the answer a page shows neighbouring rows, at offsets within the bounds.

* `PageWindow.place_of_counted`, `PageWindow.place_of_miscounted`: rows have a place unless the first
  of them tells a size that is none.
* `PageWindow.stop_kept`, `PageWindow.start_kept`: the range that is kept of the rows shown.
* `PageWindow.respects_pageOf`: the page of any rows respects the bounds.
* `Resolver.resolve_respects`: so does the page of a field, whatever its source answers.
-/

namespace RelaySql

/-! ### The size that a row tells -/

/-- The row tells a size of the set that is none: neither null nor a whole number from zero on. -/
def Row.Miscounts (row : Row) (v : Json) : Prop :=
  Fields.get? row "$total" = some v ∧ v ≠ .null ∧ ∀ n : Nat, v ≠ .ofNat n

theorem isInternal_iff {column : String} :
    isInternal column = true ↔ column ∈ ["$total", "$parent_key", "$offset"] := by
  simp only [isInternal, Bool.or_eq_true, decide_eq_true_eq, List.mem_cons, List.not_mem_nil,
    or_false, or_assoc]
  rfl

/-- The columns that a page shows of a row. -/
theorem Row.visible_eq (row : Row) :
    row.visible = row.filter fun c => c.1 ∉ ["$total", "$parent_key", "$offset"] := by
  refine List.filter_congr fun c _ => ?_
  simp only [← isInternal_iff, Bool.not_eq_true, Bool.decide_eq_false]

namespace PageWindow

theorem total_of_miscounts {row : Row} {v : Json} (h : row.Miscounts v) :
    total row = .error (.source (.rowDecode ("$total is not a row count: " ++ v.text))) := by
  obtain ⟨hv, hnull, hcount⟩ := h
  have hcolumn : Fields.get? row totalColumn = some v := hv
  cases v with
  | null => exact absurd rfl hnull
  | number n =>
      cases n with
      | whole n =>
          have hneg : ¬ 0 ≤ n := fun hn => hcount n.toNat (by rw [Json.ofNat, Int.toNat_of_nonneg hn])
          simp only [total, hcolumn, Number.nat?, hneg, if_false]
          rfl
      | real x =>
          simp only [total, hcolumn]
          rfl
  | boolean _ | string _ | array _ | object _ =>
      simp only [total, hcolumn]
      rfl

theorem total_of_not_miscounts {row : Row} (h : ∀ v, ¬ row.Miscounts v) :
    ∃ t, total row = .ok t := by
  rcases hcolumn : Fields.get? row totalColumn with _ | v
  · exact ⟨none, total_of_get?_eq_none hcolumn⟩
  · by_cases hnull : v = .null
    · exact ⟨none, by simp only [total, hcolumn, hnull]⟩
    · have hcount : ∃ n : Nat, v = .ofNat n := by
        by_contra hnone
        push Not at hnone
        exact h v ⟨hcolumn, hnull, hnone⟩
      obtain ⟨n, rfl⟩ := hcount
      exact ⟨some n, by simp [total, hcolumn, Json.ofNat, Number.nat?]⟩

variable {rows : List Row}

/-- Rows of which the first tells a size or none have a place. -/
theorem place_of_counted (w : PageWindow) (h : ∀ row ∈ rows.head?, ∀ v, ¬ row.Miscounts v) :
    ∃ length, w.place rows = .ok ((w.shown rows).map Row.visible, ⟨length, w.offset⟩) := by
  cases rows with
  | nil => exact ⟨_, rfl⟩
  | cons row rest =>
      obtain ⟨t, ht⟩ := total_of_not_miscounts (h row rfl)
      refine ⟨t <|> w.inferredLength (row :: rest).length, ?_⟩
      simp only [place, ht]
      rfl

/-- Rows of which the first tells a size that is none have no place. -/
theorem place_of_miscounted (w : PageWindow) {row : Row} (hrow : row ∈ rows.head?) {v : Json}
    (h : row.Miscounts v) :
    w.place rows = .error (.source (.rowDecode ("$total is not a row count: " ++ v.text))) := by
  obtain ⟨rest, rfl⟩ : ∃ rest, rows = row :: rest := List.head?_eq_some_iff.mp hrow
  simp only [place, total_of_miscounts h]
  rfl

/-! ### The range kept of the rows shown -/

variable {b : PageBounds} {n : Nat}

theorem isPrefix_shown {α : Type} (w : PageWindow) (rows : List α) : w.shown rows <+: rows := by
  simp only [shown]
  split
  · exact List.take_prefix _ _
  · exact List.prefix_refl _

/-- How many rows are shown: all but those past the page and its probe. -/
theorem length_shown {α : Type} (w : PageWindow) (rows : List α) :
    (w.shown rows).length = match w.pageSize with
      | some size => min size rows.length
      | none => rows.length := by
  simp only [shown]
  rcases w.pageSize with _ | size
  · rfl
  · exact List.length_take

/-- Only a page counted from the front has a size, up to the cursor before which it ends. -/
theorem pageSize_eq (b : PageBounds) :
    (ofBounds b).pageSize = b.first.map fun first =>
      match b.before with
      | none => first
      | some before => min (before - b.lower) first := by
  rcases hf : b.first with _ | first <;> rcases hl : b.last with _ | last <;>
    rcases hbe : b.before with _ | before <;> simp [ofBounds, hf, hl, hbe]

/-- The range that is kept of the first `n` rows of a window. -/
def keptOf (b : PageBounds) (n : Nat) : Span :=
  b.keep ⟨(ofBounds b).offset, (ofBounds b).offset + n⟩

/-- **Where the range kept ends**: with the rows shown, or at the cursor.  The size of a page counted
from the front has been cut off before. -/
theorem stop_kept (hb : b.Fits) (hn : ∀ size, (ofBounds b).pageSize = some size → n ≤ size) :
    (keptOf b n).stop = match b.before with
      | none => (ofBounds b).offset + n
      | some before => min ((ofBounds b).offset + n) before := by
  have hcut : ∀ first ∈ b.first,
      (ofBounds b).offset + n ≤ addUpTo64 (max (ofBounds b).offset b.lower) first := by
    intro first hf
    have hsize : n ≤ first := by
      rcases hbe : b.before with _ | before
      · exact hn first (by rw [pageSize_eq, hf, hbe]; rfl)
      · exact Nat.le_trans (hn (min (before - b.lower) first) (by rw [pageSize_eq, hf, hbe]; rfl))
          (Nat.min_le_right _ _)
    rw [(ofBounds_first (n := n) hf).1, Nat.max_self, PageBounds.lower_add_first hb hf]
    exact Nat.add_le_add_left hsize _
  rw [keptOf, PageBounds.stop_keep hcut]
  rcases b.before with _ | before
  · exact Nat.min_self _
  · rfl

/-- **Where the range kept begins**: with the rows shown, unless `last` cuts off some of them. -/
theorem start_kept (b : PageBounds) (n : Nat) :
    (keptOf b n).start = match b.last with
      | none => (ofBounds b).offset
      | some last => max (ofBounds b).offset ((keptOf b n).stop - last) := by
  have hlower := lower_le_offset b
  rcases hl : b.last with _ | last <;>
    simp only [keptOf, PageBounds.keep, hl, Nat.max_eq_left hlower]

end PageWindow

/-! ### Pages of any rows -/

/-- What a page may be, of the rows that were returned for a window on the set from `offset` on.  Its
nodes are neighbours among the rows, without the columns that statements add, and its cursors are
those of their offsets, which lie between the bounds.  It holds no more edges than the sizes allow,
and if it holds fewer, it leaves out no row before the cursor `before`. -/
structure Connection.Respects (page : Connection Row) (b : PageBounds) (offset : Nat)
    (rows : List Row) : Prop where
  block : ∃ skipped, page.nodes = ((rows.drop skipped).take page.edges.length).map
        (List.filter fun c => c.1 ∉ ["$total", "$parent_key", "$offset"]) ∧
      page.edges.map Edge.cursor =
        (List.range' (offset + skipped) page.edges.length).map Cursor.ofOffset ∧
      ∀ o ∈ List.range' (offset + skipped) page.edges.length,
        (∀ after, b.after = some after → after < o) ∧ (∀ before, b.before = some before → o < before)
  first : ∀ n, b.first = some n → page.edges.length ≤ n
  last : ∀ n, b.last = some n → page.edges.length ≤ n
  startCursor : page.pageInfo.startCursor = page.edges.head?.map Edge.cursor
  endCursor : page.pageInfo.endCursor = page.edges.getLast?.map Edge.cursor
  full : (∀ n, b.first = some n → page.edges.length < n) →
    (∀ n, b.last = some n → page.edges.length < n) →
    ∀ i, i < rows.length → (∀ before, b.before = some before → offset + i < before) →
      Cursor.ofOffset (offset + i) ∈ page.edges.map Edge.cursor

namespace PageWindow

variable {b : PageBounds} {rows : List Row}

/-- The page of the rows that are shown, in a set whose size may be known. -/
def pageOf (b : PageBounds) (rows : List Row) (length : Option Nat) : Connection Row :=
  Connection.within (((ofBounds b).shown rows).map Row.visible) b ⟨length, (ofBounds b).offset⟩

/-- The range that the page of some rows keeps. -/
def rangeOf (b : PageBounds) (rows : List Row) : Span := keptOf b ((ofBounds b).shown rows).length

section Range

variable (hb : b.Fits) (hfits : (ofBounds b).offset + rows.length ≤ maxUInt64)

include hfits in
theorem kept_eq_rangeOf (length : Option Nat) :
    Connection.kept (((ofBounds b).shown rows).map Row.visible) b ⟨length, (ofBounds b).offset⟩ =
      rangeOf b rows := by
  have hle := ((ofBounds b).isPrefix_shown rows).length_le
  rw [Connection.kept, rangeOf, keptOf, List.length_map, addUpTo64_of_le (by simp only; omega)]

include hfits in
/-- A page holds as many edges as its range holds offsets. -/
theorem length_pageOf (length : Option Nat) :
    (pageOf b rows length).edges.length = (rangeOf b rows).stop - (rangeOf b rows).start := by
  have hle := ((ofBounds b).isPrefix_shown rows).length_le
  rw [pageOf, Connection.length_edges_within, kept_eq_rangeOf hfits]
  rw [List.length_map]
  exact Nat.le_trans (Nat.add_le_add_left hle _) hfits

include hfits in
/-- The cursors of a page are those of the offsets in its range. -/
theorem cursors_pageOf (length : Option Nat) :
    (pageOf b rows length).edges.map Edge.cursor =
      (List.range' (rangeOf b rows).start (pageOf b rows length).edges.length).map
        Cursor.ofOffset := by
  rw [pageOf, Connection.edges_within, Connection.cursors_edgesFrom, Connection.length_edgesFrom,
    kept_eq_rangeOf hfits]

include hfits in
/-- The nodes of a page are neighbours among the rows. -/
theorem nodes_pageOf (length : Option Nat) :
    (pageOf b rows length).nodes =
      ((rows.drop ((rangeOf b rows).start - (ofBounds b).offset)).take
        (pageOf b rows length).edges.length).map Row.visible := by
  have hlength : (pageOf b rows length).edges.length = (pageOf b rows length).nodes.length :=
    (List.length_map _).symm
  rw [hlength, pageOf, Connection.nodes_within, kept_eq_rangeOf hfits, ← List.map_drop,
    ← List.map_take, List.length_map]
  -- neighbours among the rows shown are neighbours among all rows
  refine congrArg (List.map Row.visible) (List.prefix_iff_eq_take.mp ?_)
  exact (List.take_prefix _ _).trans (List.IsPrefix.drop ((ofBounds b).isPrefix_shown rows) _)

theorem start_rangeOf (b : PageBounds) (rows : List Row) :
    (rangeOf b rows).start = match b.last with
      | none => (ofBounds b).offset
      | some last => max (ofBounds b).offset ((rangeOf b rows).stop - last) :=
  start_kept b _

include hb in
theorem stop_rangeOf :
    (rangeOf b rows).stop = match b.before with
      | none => (ofBounds b).offset + ((ofBounds b).shown rows).length
      | some before => min ((ofBounds b).offset + ((ofBounds b).shown rows).length) before := by
  refine stop_kept hb fun size hs => ?_
  rw [length_shown, hs]
  exact Nat.min_le_left _ _

theorem offset_le_start (b : PageBounds) (rows : List Row) :
    (ofBounds b).offset ≤ (rangeOf b rows).start := by
  rw [start_rangeOf]
  split
  · exact Nat.le_refl _
  · exact Nat.le_max_left _ _

include hb in
/-- The offsets in the range of a page lie between the cursors. -/
theorem between_of_mem_rangeOf {o : Nat} (hstart : (rangeOf b rows).start ≤ o)
    (hstop : o < (rangeOf b rows).stop) :
    (∀ after, b.after = some after → after < o) ∧
      (∀ before, b.before = some before → o < before) := by
  constructor
  · intro after ha
    have hfits := hb.after after ha
    have hlower := Nat.le_trans (lower_le_offset b) (Nat.le_trans (offset_le_start b rows) hstart)
    simp only [PageBounds.lower, ha, addUpTo64, maxInt64, maxUInt64] at hfits hlower
    omega
  · intro before hbe
    rw [stop_rangeOf hb, hbe] at hstop
    exact Nat.lt_of_lt_of_le hstop (Nat.min_le_right _ _)

include hb in
/-- A page that is not cut off by a size keeps every row before the cursor. -/
theorem mem_rangeOf_of_not_full
    (hfirst : ∀ n, b.first = some n → (rangeOf b rows).stop - (rangeOf b rows).start < n)
    (hlast : ∀ n, b.last = some n → (rangeOf b rows).stop - (rangeOf b rows).start < n)
    {i : Nat} (hi : i < rows.length)
    (hbefore : ∀ before, b.before = some before → (ofBounds b).offset + i < before) :
    (rangeOf b rows).start = (ofBounds b).offset ∧
      (ofBounds b).offset + i < (rangeOf b rows).stop := by
  have hstart : (rangeOf b rows).start = (ofBounds b).offset := by
    have hstart := start_rangeOf b rows
    rcases hl : b.last with _ | last
    · rwa [hl] at hstart
    · have hlast := hlast last hl
      simp only [hl] at hstart
      omega
  refine ⟨hstart, ?_⟩
  have hstop : (rangeOf b rows).stop = _ := stop_rangeOf hb
  have hcount := (ofBounds b).length_shown rows
  rw [hstart] at hfirst
  -- a row is left out of those shown only if as many are shown as the size allows
  rw [pageSize_eq] at hcount
  rcases hf : b.first with _ | first <;> rcases hbe : b.before with _ | before <;>
    simp only [hf, hbe, Option.map_none, Option.map_some] at hstop hcount
  · omega
  · have hbefore := hbefore before hbe
    omega
  · have hfirst := hfirst first hf
    omega
  · have hfirst := hfirst first hf
    have hbefore := hbefore before hbe
    have hoffset := (ofBounds_first (n := 0) hf).1
    omega

include hb hfits in
/-- **The page of any rows respects the bounds.** -/
theorem respects_pageOf (length : Option Nat) :
    (pageOf b rows length).Respects b (ofBounds b).offset rows := by
  have hlength := length_pageOf hfits length
  have hcursors := cursors_pageOf hfits length
  have hoffset := offset_le_start b rows
  obtain ⟨skipped, hskipped⟩ := Nat.exists_eq_add_of_le hoffset
  rw [hskipped] at hcursors
  refine ⟨⟨skipped, ?_, hcursors, ?_⟩, ?_, ?_, rfl, rfl, ?_⟩
  · rw [nodes_pageOf hfits, hskipped, Nat.add_sub_cancel_left]
    exact List.map_congr_left fun row _ => row.visible_eq
  · intro o ho
    obtain ⟨hstart, hstop⟩ := List.mem_range'_1.mp ho
    exact between_of_mem_rangeOf hb (show (rangeOf b rows).start ≤ o by omega) (by omega)
  · intro n hf
    have hstop : (rangeOf b rows).stop ≤ _ := PageBounds.stop_le_first hf
    simp only [Nat.max_eq_left (lower_le_offset b), addUpTo64] at hstop
    omega
  · intro n hl
    have hstart := start_rangeOf b rows
    simp only [hl] at hstart
    omega
  · intro hfirst hlast i hi hbefore
    obtain ⟨hstart, hstop⟩ := mem_rangeOf_of_not_full hb (hlength ▸ hfirst) (hlength ▸ hlast) hi
      hbefore
    rw [hcursors]
    refine List.mem_map_of_mem (List.mem_range'_1.mpr ?_)
    omega

end Range

end PageWindow

namespace ComposedQuery

variable {b : PageBounds} {request : PageRequest} {rows : List Row}

/-- The page of rows of which the first tells a size or none. -/
theorem finish_of_counted (hr : request.bounds = .ok b) (s : Statement)
    (h : ∀ row ∈ rows.head?, ∀ v, ¬ row.Miscounts v) :
    ∃ length, finish ⟨s, some (.ofBounds b), request⟩ rows =
      .ok (.connection (PageWindow.pageOf b rows length)) := by
  obtain ⟨length, hplace⟩ := (PageWindow.ofBounds b).place_of_counted h
  refine ⟨length, ?_⟩
  simp only [finish, hplace, Connection.ofSlice, hr]
  rfl

/-- Rows of which the first tells a size that is none make no page. -/
theorem finish_of_miscounted (b : PageBounds) (request : PageRequest) (s : Statement) {row : Row}
    (hrow : row ∈ rows.head?) {v : Json} (h : row.Miscounts v) :
    finish ⟨s, some (.ofBounds b), request⟩ rows =
      .error (.source (.rowDecode ("$total is not a row count: " ++ v.text))) := by
  simp only [finish, (PageWindow.ofBounds b).place_of_miscounted hrow h]
  rfl

end ComposedQuery

namespace Resolver

variable {C : Type}

/-- **Whatever the source answers, a page respects its request.**  The field fails only if the first
of the rows tells a size that is none; any other rows make a page that respects the bounds. -/
theorem resolve_respects {r : Resolver C} {args : Arguments} {context : C} {q : ComposedQuery}
    {t : Trace} {rows : List Row} (hp : r.paginated = true)
    (hq : r.compose args context none = .ok q)
    (hanswer : r.source.answer (t.statements r.source.name) q.statement = .ok rows)
    (hfits : q.statement.offset.getD 0 + rows.length ≤ maxUInt64) :
    ∃ b, PageRequest.ofArguments args = .ok q.request ∧ q.request.bounds = .ok b ∧
      (∀ row ∈ rows.head?, ∀ v, row.Miscounts v → ((r.resolve args context).after t).1 =
        .error (.source (.rowDecode ("$total is not a row count: " ++ v.text)))) ∧
      ((∀ row ∈ rows.head?, ∀ v, ¬ row.Miscounts v) →
        ∃ page, ((r.resolve args context).after t).1 = .ok (.connection page) ∧
          page.Respects b (q.statement.offset.getD 0) rows) := by
  have hresult := congrArg Prod.fst (resolve_after hq t)
  simp only [hanswer] at hresult
  obtain ⟨join, filter, request, b, -, hr, hrb, rfl⟩ := compose_paginated hq hp
  rw [windowed_offset] at hfits ⊢
  refine ⟨b, hr, hrb, fun row hrow v hv => ?_, fun hcounted => ?_⟩
  · rw [hresult]
    exact ComposedQuery.finish_of_miscounted b request _ hrow hv
  · obtain ⟨length, hpage⟩ := ComposedQuery.finish_of_counted hrb
      (windowed (r.base join filter) (.ofBounds b)) hcounted
    exact ⟨_, hresult.trans hpage,
      PageWindow.respects_pageOf (PageRequest.bounds_fit hr hrb) hfits length⟩

/-- Rows that come whatever was asked for: more than the window, and not as many as they tell. -/
def unaskedRows : List Row :=
  [[("$total", .ofNat 1), ("id", .ofNat 20)], [("id", .ofNat 21), ("$parent_key", .ofNat 7)],
    [("$offset", .null), ("id", .ofNat 22), ("name", .string "x")], [], [("id", .ofNat 24)]]

/-- A field whose source returns them. -/
def ofUnaskedRows : Resolver Unit :=
  ⟨"item", none, none, [⟨"id", .ascending⟩], true, .ofAnswers "memory" [.ok unaskedRows]⟩

/-- The last two of the first three rows between two cursors. -/
def threeBetween : Arguments :=
  [("first", .number (.whole 3)), ("last", .number (.whole 2)),
    ("after", .string (Cursor.ofOffset 5).text), ("before", .string (Cursor.ofOffset 30).text)]

theorem resolve_respects_unaskedRows :
    ∃ page, ((ofUnaskedRows.resolve threeBetween ()).after []).1 = .ok (.connection page) ∧
      page.Respects ⟨some 3, some 5, some 2, some 30⟩ 6 unaskedRows := by
  obtain ⟨q, hq, hbounds, hoffset⟩ : ∃ q, ofUnaskedRows.compose threeBetween () none = .ok q ∧
      q.request.bounds = .ok ⟨some 3, some 5, some 2, some 30⟩ ∧ q.statement.offset = some 6 :=
    ⟨_, rfl, rfl, rfl⟩
  obtain ⟨b, -, hb, -, hpage⟩ := resolve_respects (t := []) rfl hq
    (show ofUnaskedRows.source.answer _ _ = .ok unaskedRows from rfl) (by rw [hoffset]; decide)
  obtain rfl : b = _ := Except.ok.inj (hb.symm.trans hbounds)
  rw [hoffset] at hpage
  refine hpage fun row hrow v ⟨hv, _, hcount⟩ => ?_
  obtain rfl : _ = row := Option.some.inj hrow
  exact hcount 1 (Option.some.inj hv).symm

end Resolver

end RelaySql
