import RelaySql.Proofs.Page.Fetched
import RelaySql.Proofs.Resolver.Groups
import RelaySql.Proofs.Source.Rows
import RelaySql.Proofs.Sql.Literal

/-!
# Sources — the rows of each parent

A source that holds the rows of a table answers a nested statement key by key: it pages the rows of
each parent alone.

* `childrenWith_flatMap`: of the whole answer, the rows that name a key are those the source returned
  for it.
* `ComposedQuery.finishGroup_returnedFrom`: the rows returned for a key always make a value.
-/

namespace RelaySql

namespace Source

/-- The source answers every nested statement on a table from these rows, whatever it was asked
before. -/
def Stores (source : Source) (table : String) (totals : Bool) (stored : List Row) : Prop :=
  ∀ history s, s.table = table → s.join.isSome →
    source.answer history s = .ok (select totals stored s)

/-- The source fails whenever it is asked. -/
def Fails (source : Source) (fault : SourceFault) : Prop :=
  ∀ history s, source.answer history s = .error fault

theorem stores_ofTables {name table : String} {tables : Fields (List Row)} {totals : Bool}
    {stored : List Row} (h : tables.get? table = some stored) :
    (ofTables name tables totals).Stores table totals stored := by
  intro history s ht _
  simp only [ofTables, ht, h, Option.getD_some]

/-- What the source returns for one parent's key. -/
def part (totals : Bool) (stored : List Row) (s : Statement) (key : String) : List Row :=
  page s (if s.countTotal && totals then counted true (childrenOf stored key)
    else childrenOf stored key)

theorem select_join {totals : Bool} {stored : List Row} {s : Statement} {join : Join}
    (hj : s.join = some join) :
    select totals stored s = join.parentKeys.flatMap (part totals stored s) := by
  simp only [select, hj]
  rfl

variable {totals : Bool} {stored : List Row} {s : Statement}

theorem mem_childrenOf {key : String} {row : Row} (h : row ∈ childrenOf stored key) :
    row ∈ stored ∧ ∃ v, Fields.get? row parentKeyColumn = some v ∧ Sql.literal v = .ok key := by
  obtain ⟨hm, hl⟩ := List.mem_filter.mp h
  refine ⟨hm, ?_⟩
  rcases hv : Fields.get? row parentKeyColumn with _ | v
  · simp [hv] at hl
  · simp only [hv, Option.map_some] at hl
    split at hl
    · next l he =>
        refine ⟨v, rfl, (Option.some.inj he).trans ?_⟩
        rw [of_decide_eq_true hl]
    · cases hl

/-- A row whose parent's key has the literal of a value names the text of that value. -/
theorem parentText_of_mem_childrenOf {v : Json} {key l : String} (hk : keyText v = .ok key)
    (hl : Sql.literal v = .ok l) {row : Row} (h : row ∈ childrenOf stored l) :
    row.parentText? = some key := by
  obtain ⟨-, w, hw, hlw⟩ := mem_childrenOf h
  rw [Row.parentText?, hw, Option.bind_some, ← Sql.keyText_of_literal hl hlw]
  exact keyText_eq_ok.mp hk

/-- A row returned for the literal of a value names the text of that value. -/
theorem parentText_of_returnedFrom {counts : Bool} {n : Nat} {v : Json} {key l : String}
    {answer : List Row}
    (h : List.Forall₂ (Row.ReturnedFrom counts n) (page s (childrenOf stored l)) answer)
    (hk : keyText v = .ok key) (hl : Sql.literal v = .ok l) {row : Row} (hm : row ∈ answer) :
    row.parentText? = some key := by
  obtain ⟨own, hown, hr⟩ := exists_of_mem_right h hm
  rw [Row.parentText?, hr.parent]
  exact parentText_of_mem_childrenOf hk hl (mem_of_mem_page hown)

/-- The source answers every nested statement on a table key by key, in the order of the statement:
for each it skips and takes rows of those stored whose parent's key has that literal, and tells
their number beside each if it reports totals. -/
def PagesByKey (source : Source) (table : String) (totals : Bool) (stored : List Row) : Prop :=
  ∀ history s join, s.table = table → s.join = some join → ∃ part : String → List Row,
    source.answer history s = .ok (join.parentKeys.flatMap part) ∧
    ∀ l ∈ join.parentKeys,
      List.Forall₂ (Row.ReturnedFrom (s.countTotal && totals) (childrenOf stored l).length)
        (page s (childrenOf stored l)) (part l)

section Stored

variable (hstored : ∀ row ∈ stored, Fields.get? row totalColumn = none)

include hstored

/-- What the source returns for one parent's key is a page of that parent's rows. -/
theorem returnedFrom_part (totals : Bool) (s : Statement) (key : String) :
    List.Forall₂ (Row.ReturnedFrom (s.countTotal && totals) (childrenOf stored key).length)
      (page s (childrenOf stored key)) (part totals stored s key) :=
  returnedFrom_page true _ s fun row hm => hstored row (mem_childrenOf hm).1

/-- A row returned for a key shows a stored row. -/
theorem visible_of_mem_part {key : String} {row : Row} (h : row ∈ part totals stored s key) :
    ∃ own ∈ stored, row.visible = own.visible := by
  obtain ⟨own, hown, hr⟩ := exists_of_mem_right (returnedFrom_part hstored totals s key) h
  exact ⟨own, (mem_childrenOf (mem_of_mem_page hown)).1, hr.visible⟩

/-- A source that answers from stored rows does so key by key. -/
theorem pagesByKey_of_stores {source : Source} {table : String}
    (h : source.Stores table totals stored) : source.PagesByKey table totals stored := by
  intro history s join ht hj
  refine ⟨part totals stored s, ?_, fun l _ => returnedFrom_part hstored totals s l⟩
  rw [h history s ht (by rw [hj]; rfl), select_join hj]

end Stored

end Source

/-- Lists of rows that name their keys, one after another: the rows that name one of the keys. -/
theorem childrenWith_flatMap {keys : List String} (hkeys : keys.Nodup) {rows : String → List Row}
    (h : ∀ key ∈ keys, ∀ row ∈ rows key, row.parentText? = some key) {key : String}
    (hm : key ∈ keys) : childrenWith (keys.flatMap rows) key = rows key := by
  have hother : ∀ other ∈ keys, other ≠ key → childrenWith (rows other) key = [] := by
    intro other ho hne
    refine List.filter_eq_nil_iff.mpr fun row hrow => ?_
    rw [h other ho row hrow]
    simpa using hne
  have hown : childrenWith (rows key) key = rows key :=
    List.filter_eq_self.mpr fun row hrow => decide_eq_true (h key hm row hrow)
  clear h
  -- of the lists, only that of `key` is left
  induction keys with
  | nil => cases hm
  | cons first rest ih =>
      obtain ⟨hfirst, hrest⟩ := List.nodup_cons.mp hkeys
      obtain ⟨ho, hother⟩ := List.forall_mem_cons.mp hother
      have happend : childrenWith ((first :: rest).flatMap rows) key =
          childrenWith (rows first) key ++ childrenWith (rest.flatMap rows) key :=
        List.filter_append ..
      rw [happend]
      by_cases he : first = key
      · subst he
        have hnil : childrenWith (rest.flatMap rows) first = [] := by
          rw [childrenWith, List.filter_flatMap, List.flatMap_eq_nil_iff]
          intro other hm
          exact hother other hm fun he => hfirst (he ▸ hm)
        rw [hown, hnil, List.append_nil]
      · rw [ho he, List.nil_append]
        exact ih hrest ((List.mem_cons.mp hm).resolve_left (Ne.symm he)) hother

/-- The rows of a page are rows of the slice. -/
theorem Connection.mem_of_mem_nodes {α : Type} {slice : List α} {b : PageBounds} {p : Placement}
    {node : α} (h : node ∈ (within slice b p).nodes) : node ∈ slice := by
  obtain ⟨edge, he, rfl⟩ := List.mem_map.mp h
  obtain ⟨⟨row, offset⟩, hp, hedge⟩ := List.mem_filterMap.mp he
  obtain ⟨-, hedge⟩ := Option.ite_none_right_eq_some.mp hedge
  cases hedge
  exact List.fst_mem_of_mem_zipIdx hp

namespace ComposedQuery

variable {C : Type} {r : Resolver C} {args : Arguments} {context : C}
  {parents : Option ParentBatch} {q : ComposedQuery}

/-- The page that a statement asks for makes a value, if its rows all tell the same size, or none. -/
theorem finish_page (hq : r.compose args context parents = .ok q) {rows answer : List Row}
    {t : Option Nat} (hv : answer.map Row.visible = Source.page q.statement rows)
    (ht : ∀ row ∈ answer, PageWindow.total row = .ok t) : ∃ value, q.finish answer = .ok value := by
  obtain ⟨join, filter, -, -, ⟨-, rfl⟩ | ⟨-, request, b, hr, hb, rfl⟩⟩ := Resolver.compose_eq_ok hq
  · exact ⟨_, rfl⟩
  · exact ⟨_, finish_fetched (PageRequest.bounds_fit hr hb) hb (r.base join filter) hv ht⟩

/-- **The rows returned for a key always make a value.** -/
theorem finishGroup_returnedFrom (hq : r.compose args context parents = .ok q) {counts : Bool}
    {n : Nat} {rows answer : List Row}
    (h : List.Forall₂ (Row.ReturnedFrom counts n) (Source.page q.statement rows) answer) :
    ∃ value, q.finishGroup answer = .ok value := by
  have h := Source.returnedAs_of_returnedFrom h
  simp only [finishGroup]
  split
  · exact ⟨_, rfl⟩
  · exact finish_page hq ((Source.map_visible_of_returnedAs h).trans (Source.page_map _ _ _).symm)
      (Source.total_of_mem_returned h)

/-- The nodes of a value are rows of the answer, as far as they are shown. -/
theorem nodes_finish {rows : List Row} {value : Resolution} (h : q.finish rows = .ok value) :
    ∀ node ∈ value.nodes, ∃ row ∈ rows, node = row.visible := by
  intro node hn
  simp only [finish] at h
  split at h
  · cases h
    obtain ⟨row, hrow, rfl⟩ := List.mem_map.mp hn
    exact ⟨row, hrow, rfl⟩
  · next window _ =>
      obtain ⟨⟨shown, place⟩, hplace, h⟩ := Except.bind_eq_ok.mp h
      obtain ⟨page, hpage, h⟩ := Except.bind_eq_ok.mp h
      obtain ⟨b, -, hpage⟩ := Except.bind_eq_ok.mp hpage
      cases h
      cases hpage
      have hm : node ∈ shown := Connection.mem_of_mem_nodes hn
      rw [PageWindow.shown_of_place hplace] at hm
      obtain ⟨row, hrow, rfl⟩ := List.mem_map.mp hm
      exact ⟨row, PageWindow.mem_of_mem_shown hrow, rfl⟩

theorem nodes_empty (q : ComposedQuery) : q.empty.nodes = [] := by
  simp only [empty]
  split <;> rfl

theorem nodes_finishGroup {rows : List Row} {value : Resolution}
    (h : q.finishGroup rows = .ok value) :
    ∀ node ∈ value.nodes, ∃ row ∈ rows, node = row.visible := by
  simp only [finishGroup] at h
  split at h
  · rw [← Except.ok.inj h, nodes_empty]
    intro node hn
    cases hn
  · exact nodes_finish h

end ComposedQuery

end RelaySql
