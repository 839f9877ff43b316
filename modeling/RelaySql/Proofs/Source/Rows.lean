import Mathlib.Data.List.Forall2
import RelaySql.Page.Window
import RelaySql.Source

/-!
# Sources — the rows that come back

A source that holds rows answers with a page of them.  It may add the size of the set and the place
in it as columns, which a page does not show, so the page shows the rows that the source holds.

* `Source.returnedFrom_page`: a page of counted rows shows the page of the rows, and every row of it
  tells the size of the set.
* `Source.Lists`: what is asked of a source of one list; a source in memory is one
  (`Source.lists_visible_ofTables`).
-/

namespace RelaySql

namespace Row

/-- The row has none of the columns that statements add. -/
def Plain (row : Row) : Prop := ∀ column ∈ Fields.keys row, isInternal column = false

instance (row : Row) : Decidable row.Plain :=
  inferInstanceAs (Decidable (∀ column ∈ Fields.keys row, isInternal column = false))

theorem visible_of_plain {row : Row} (h : row.Plain) : row.visible = row := by
  refine List.filter_eq_self.mpr fun c hc => ?_
  simpa using h c.1 (List.mem_map_of_mem hc)

theorem get?_internal_of_plain {row : Row} (h : row.Plain) {column : String}
    (hc : isInternal column = true) : Fields.get? row column = none := by
  refine Fields.get?_eq_none_iff.mpr fun hm => ?_
  rw [h column hm] at hc
  cases hc

/-- A column that statements add is not seen. -/
theorem visible_insert (row : Row) {column : String} (hc : isInternal column = true)
    (v : Json) : Row.visible (Fields.insert row column v) = row.visible := by
  induction row with
  | nil => simp [Fields.insert, visible, hc]
  | cons c rest ih =>
      obtain ⟨n, w⟩ := c
      by_cases h : n = column
      · subst h
        simp [Fields.insert, visible, hc]
      · simp only [visible] at ih ⊢
        simp only [Fields.insert, h, if_false, List.filter_cons, ih]

end Row

namespace Source

variable {α β : Type}

theorem page_map (s : Statement) (f : α → β) (rows : List α) :
    page s (rows.map f) = (page s rows).map f := by
  simp only [page]
  cases s.limit <;> simp [List.map_drop, List.map_take]

theorem mem_of_mem_page {s : Statement} {rows : List α} {row : α} (h : row ∈ page s rows) :
    row ∈ rows := by
  simp only [page] at h
  split at h
  · exact List.mem_of_mem_drop h
  · exact List.mem_of_mem_drop (List.mem_of_mem_take h)

end Source

namespace PageWindow

theorem total_insert (row : Row) (n : Nat) :
    total (Fields.insert row totalColumn (.ofNat n)) = .ok (some n) := by
  simp [total, Fields.get?_insert_self, Json.ofNat, Number.nat?]

theorem total_congr {row row' : Row}
    (h : Fields.get? row totalColumn = Fields.get? row' totalColumn) : total row = total row' := by
  simp only [total, h]

/-- A row without the column tells no size. -/
theorem total_of_get?_eq_none {row : Row} (h : Fields.get? row totalColumn = none) :
    total row = .ok none := by
  simp only [total, h]

end PageWindow

/-! ### Sources of one list -/

/-- The row as a source returns it out of a set of `n` rows: its own columns, beside the size of the
set if the source counts it. -/
structure Row.ReturnedAs (counts : Bool) (n : Nat) (row returned : Row) : Prop where
  visible : returned.visible = row
  total : Fields.get? returned totalColumn = if counts then some (.ofNat n) else none

/-- The row as a source that stores it returns it out of a set of `n` rows: its visible columns and
its parent's key, beside the size of the set if the source counts it.  Its place may be told too. -/
structure Row.ReturnedFrom (counts : Bool) (n : Nat) (row returned : Row) : Prop
    extends row.visible.ReturnedAs counts n returned where
  parent : Fields.get? returned parentKeyColumn = Fields.get? row parentKeyColumn

namespace Source

/-- The source answers every statement on a table at top level from a list of rows, by skipping and
taking rows of it, and tells their number beside each if it reports totals.  The rows themselves
have none of the columns that statements add. -/
def Lists (source : Source) (table : String) (totals : Bool) (rows : List Row) : Prop :=
  ∀ history s, s.table = table → s.join = none → ∃ answer, source.answer history s = .ok answer ∧
    List.Forall₂ (Row.ReturnedAs (s.countTotal && totals) rows.length) (page s rows) answer

theorem total_of_returnedAs {counts : Bool} {n : Nat} {row returned : Row}
    (h : row.ReturnedAs counts n returned) :
    PageWindow.total returned = .ok (if counts then some n else none) := by
  have ht := h.total
  cases counts with
  | false => exact PageWindow.total_of_get?_eq_none ht
  | true =>
      refine Eq.trans (PageWindow.total_congr ?_) (PageWindow.total_insert returned n)
      rw [ht, Fields.get?_insert_self]
      rfl

theorem total_of_mem_returned {counts : Bool} {n : Nat} {rows answer : List Row}
    (h : List.Forall₂ (Row.ReturnedAs counts n) rows answer) :
    ∀ row ∈ answer, PageWindow.total row = .ok (if counts then some n else none) := by
  induction h with
  | nil => simp
  | cons hr _ ih => exact List.forall_mem_cons.mpr ⟨total_of_returnedAs hr, ih⟩

theorem map_visible_of_returnedAs {counts : Bool} {n : Nat} {rows answer : List Row}
    (h : List.Forall₂ (Row.ReturnedAs counts n) rows answer) : answer.map Row.visible = rows := by
  induction h with
  | nil => rfl
  | cons hr _ ih => rw [List.map_cons, hr.visible, ih]

/-- A page of counted rows, or of rows that tell no size. -/
theorem returnedFrom_page (nested counts : Bool) (s : Statement) {rows : List Row}
    (htotal : ∀ row ∈ rows, Fields.get? row totalColumn = none) :
    List.Forall₂ (Row.ReturnedFrom counts rows.length) (page s rows)
      (page s (if counts then counted nested rows else rows)) := by
  cases counts with
  | false =>
      exact List.forall₂_same.mpr fun row hm => ⟨⟨rfl, htotal row (mem_of_mem_page hm)⟩, rfl⟩
  | true =>
      have hz : page s rows = (page s rows.zipIdx).map Prod.fst := by
        rw [← page_map, List.zipIdx_map_fst]
      simp only [if_true, counted, page_map, hz, List.forall₂_map_right_iff,
        List.forall₂_map_left_iff]
      refine List.forall₂_same.mpr fun p _ => ⟨⟨?_, ?_⟩, ?_⟩
      · cases nested <;> simp [Row.visible_insert, isInternal]
      · cases nested <;> simp [Fields.get?_insert, totalColumn, offsetColumn]
      · cases nested <;> simp [Fields.get?_insert, totalColumn, offsetColumn, parentKeyColumn]

/-- Of rows that a source stores, it returns what is visible as it would from a list of it. -/
theorem returnedAs_of_returnedFrom {counts : Bool} {n : Nat} {rows answer : List Row}
    (h : List.Forall₂ (Row.ReturnedFrom counts n) rows answer) :
    List.Forall₂ (Row.ReturnedAs counts n) (rows.map Row.visible) answer :=
  List.forall₂_map_left_iff.mpr (h.imp fun _ _ hr => hr.toReturnedAs)

/-- A source that holds the rows in memory answers from what is visible of them. -/
theorem lists_visible_ofTables {name table : String} {tables : Fields (List Row)} {totals : Bool}
    {rows : List Row} (hrows : tables.get? table = some rows)
    (htotal : ∀ row ∈ rows, Fields.get? row totalColumn = none) :
    (ofTables name tables totals).Lists table totals (rows.map Row.visible) := by
  intro history s ht hs
  refine ⟨_, rfl, ?_⟩
  rw [ht, hrows, Option.getD_some, page_map, List.length_map]
  simp only [select, hs]
  exact returnedAs_of_returnedFrom (returnedFrom_page false _ s htotal)

/-- A source that holds plain rows in memory answers from them. -/
theorem lists_ofTables {name table : String} {tables : Fields (List Row)} {totals : Bool}
    {rows : List Row} (hrows : tables.get? table = some rows) (hplain : ∀ row ∈ rows, row.Plain) :
    (ofTables name tables totals).Lists table totals rows := by
  have hvisible : rows.map Row.visible = rows :=
    (List.map_congr_left fun row hm => Row.visible_of_plain (hplain row hm)).trans (List.map_id rows)
  have hlists : (ofTables name tables totals).Lists table totals (rows.map Row.visible) :=
    lists_visible_ofTables hrows fun row hm => Row.get?_internal_of_plain (hplain row hm) rfl
  rwa [hvisible] at hlists

end Source

end RelaySql
