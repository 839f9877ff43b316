import RelaySql.Proofs.Resolver.PerParent

/-!
# Resolvers — parents without a returned row

A parent for whom the source returned no row has the group `ComposedQuery.empty`, which tells of no
rows on either side.  At top level the page of no rows is placed where the window begins, so it tells
of rows before it as soon as the window skips any.

* `Connection.pageInfo_within_nil`: a page of no rows tells of rows beyond it exactly if its slice
  begins behind some.
* `Resolver.emptyGroup_agrees_iff`: so the two pages agree exactly if the statement skips nothing.
* `Resolver.emptyPages_agree_iff`: for every parent of a batch.
-/

namespace RelaySql

/-- **A page of no rows** tells of none beyond it only at the start of the set. -/
theorem Connection.pageInfo_within_nil {α : Type} (b : PageBounds) {length : Option Nat}
    {start : Nat} (hlength : ∀ n ∈ length, n = addUpTo64 start 0) :
    (within ([] : List α) b ⟨length, start⟩).pageInfo = {} ↔ start = 0 := by
  have hupper : length.getD (addUpTo64 start 0) = addUpTo64 start 0 := by
    rcases length with _ | n
    · rfl
    · exact hlength n rfl
  have hinfo : (within ([] : List α) b ⟨length, start⟩).pageInfo =
      info (b.keep ⟨start, addUpTo64 start 0⟩) (addUpTo64 start 0) ([] : List (Edge α)) := by
    simp only [within, List.length_nil, hupper, Nat.max_self, edgesWithin, List.zipIdx_nil,
      List.filterMap_nil]
  rw [hinfo]
  constructor
  · intro h
    by_contra hne
    have hpos := Nat.pos_of_ne_zero hne
    have hstart := Nat.lt_of_lt_of_le hpos (b.start_le_start ⟨start, addUpTo64 start 0⟩)
    have hset : 0 < addUpTo64 start 0 := by
      simp only [addUpTo64, maxUInt64]
      omega
    have hprevious := congrArg PageInfo.hasPreviousPage h
    simp [info, hstart, hset] at hprevious
  · rintro rfl
    have hstop := b.stop_le ⟨0, addUpTo64 0 0⟩
    simp only [addUpTo64] at hstop
    simp [info, addUpTo64]

/-- The number of no rows tells no other size than the place where the window begins. -/
theorem PageWindow.inferredLength_zero (w : PageWindow) :
    ∀ n ∈ w.inferredLength 0, n = addUpTo64 w.offset 0 := by
  intro n hn
  obtain ⟨offset, limit, pageSize⟩ := w
  have hall : ∀ limit, (if limit ≤ 0 then none else some (addUpTo64 offset 0)) = some n →
      n = addUpTo64 offset 0 := fun limit h =>
    (Option.some.inj (Option.ite_none_left_eq_some.mp h).2).symm
  -- no probe is among no rows, so the size of the page makes no difference
  simp only [inferredLength, Nat.not_lt_zero, if_false] at hn
  rcases pageSize with _ | size <;> rcases limit with _ | limit
  · exact (Option.some.inj hn).symm
  · exact hall limit hn
  · exact (Option.some.inj hn).symm
  · exact hall limit hn

namespace ComposedQuery

variable {C : Type} {r : Resolver C} {args : Arguments} {context : C}
  {parents : Option ParentBatch} {q : ComposedQuery}

/-- The page of no rows, against the group of a parent without rows. -/
theorem finish_nil (hq : r.compose args context parents = .ok q) (hp : r.paginated = true) :
    ∃ page, q.finish [] = .ok (.connection page) ∧ q.empty = .connection .empty ∧
      (page.pageInfo = {} ↔ q.statement.offset = none) := by
  obtain ⟨join, filter, request, b, -, hr, hb, rfl⟩ := Resolver.compose_paginated hq hp
  refine ⟨Connection.within [] b ⟨(PageWindow.ofBounds b).inferredLength 0,
    (PageWindow.ofBounds b).offset⟩, ?_, rfl, ?_⟩
  · simp only [finish, PageWindow.place, Connection.ofSlice, hb]
    cases (PageWindow.ofBounds b).pageSize <;> simp only [List.take_nil] <;> rfl
  · rw [Connection.pageInfo_within_nil b (PageWindow.inferredLength_zero _)]
    simp [Resolver.windowed]

end ComposedQuery

namespace Resolver

variable {C : Type} {r : Resolver C} {args : Arguments} {context : C} {parents : ParentBatch}
  {q : ComposedQuery} {totals : Bool}

/-- The group of a parent for whom no row is returned, and the page of its rows alone. -/
theorem emptyGroup_agrees_iff (hp : r.paginated = true)
    (hq : r.compose args context (some parents) = .ok q) {rows : List Row}
    (hnil : Source.page q.statement rows = []) {alone : Source}
    (halone : alone.Lists r.table totals (rows.map Row.visible)) (u : Trace) :
    ∃ page, (((r.withSource alone).resolve args context).after u).1 = .ok (.connection page) ∧
      ((Connection.empty : Connection Row).pageInfo = page.pageInfo ↔ q.statement.offset = none) := by
  obtain ⟨page, hfinish, -, hinfo⟩ := ComposedQuery.finish_nil hq hp
  have hunjoined : (r.withSource alone).compose args context none = .ok q.unjoined :=
    compose_unjoined hq
  obtain ⟨answer, v, hanswer, hresolve⟩ := resolve_of_lists hunjoined halone u
  have hpage : Source.page q.unjoined.statement (rows.map Row.visible) = [] :=
    (Source.page_map _ _ _).trans (congrArg (List.map Row.visible) hnil)
  rw [hpage, List.forall₂_nil_left_iff] at hanswer
  obtain rfl := hanswer
  exact ⟨page, by rw [hresolve]; exact hfinish, eq_comm.trans hinfo⟩

/-- **The pages of parents without a returned row agree** with the pages at top level exactly if the
statement skips nothing. -/
theorem emptyPages_agree_iff (hp : r.paginated = true)
    (hq : r.compose args context (some parents) = .ok q) {stored : List Row}
    (hsource : r.source.PagesByKey r.table totals stored) {kind : KeyKind}
    (hkeyed : ∀ row ∈ parents.rows, row.Keyed parents.keyColumn kind) (t : Trace) :
    ∃ groups, ((r.resolveNested args context parents).after t).1 = .ok groups ∧
      ∀ row ∈ parents.rows, ∃ v key l, parents.keyValue row = .ok v ∧ keyText v = .ok key ∧
        Sql.literal v = .ok l ∧ (Source.page q.statement (Source.childrenOf stored l) = [] →
          ∃ group, groups.get? key = some (.connection group) ∧
            ∀ alone : Source,
              alone.Lists r.table totals ((Source.childrenOf stored l).map Row.visible) →
              ∀ u, ∃ page,
                (((r.withSource alone).resolve args context).after u).1 = .ok (.connection page) ∧
                (group.pageInfo = page.pageInfo ↔ q.statement.offset = none)) := by
  by_cases hrows : parents.rows = []
  · exact ⟨[], by rw [resolveNested_of_rows_nil hq hrows], by simp [hrows]⟩
  obtain ⟨texts, part, value, ht, hgroups, hvalue⟩ :=
    resolveNested_of_pagesByKey hq hsource hkeyed hrows t
  obtain ⟨-, -, hempty, -⟩ := ComposedQuery.finish_nil hq hp
  refine ⟨_, hgroups, fun row hrow => ?_⟩
  obtain ⟨v, key, hv, hk, hl, hm⟩ := ParentBatch.key_of_mem ht hrow (hkeyed row hrow)
  refine ⟨v, key, _, hv, hk, hl, fun hnil => ⟨.empty, ?_, fun alone halone u =>
    emptyGroup_agrees_iff hp hq hnil halone u⟩⟩
  obtain ⟨hgroup, hpart⟩ := hvalue key hm
  rw [hnil, List.forall₂_nil_left_iff] at hpart
  rw [ComposedQuery.finishGroup, if_pos hpart, hempty] at hgroup
  rw [Fields.get?_tabulate, if_pos (List.mem_eraseDups.mpr hm), ← Except.ok.inj hgroup]

theorem emptyPages_agree_iff_oneEach :
    ∃ groups group page,
      (((pagedOrders placedOrders).resolveNested oneEach () fourParents).after []).1 = .ok groups ∧
      groups.get? "3" = some (.connection group) ∧
      (((pagedOrders (Source.childrenOf placedOrders "3")).resolve oneEach ()).after []).1 =
        .ok (.connection page) ∧
      group.pageInfo = page.pageInfo := by
  obtain ⟨q, hq, hoffset, hnil⟩ : ∃ q,
      (pagedOrders placedOrders).compose oneEach () (some fourParents) = .ok q ∧
      q.statement.offset = none ∧ Source.page q.statement (Source.childrenOf placedOrders "3") = [] :=
    ⟨_, rfl, rfl, rfl⟩
  have hstored : ∀ row ∈ placedOrders, Fields.get? row totalColumn = none := by decide
  have hkeyed : ∀ row ∈ fourParents.rows, row.Keyed fourParents.keyColumn .numbers := by
    simp [fourParents, Row.Keyed, KeyKind.Holds, Fields.get?, Json.ofNat]
  obtain ⟨groups, hgroups, hrows⟩ := emptyPages_agree_iff rfl hq
    (Source.pagesByKey_of_stores hstored (Source.stores_ofTables rfl)) hkeyed []
  obtain ⟨v, key, l, hv, hk, hl, hempty⟩ := hrows [("id", .ofNat 3)] (by decide)
  obtain rfl : v = _ := (Except.ok.inj hv).symm
  obtain rfl : key = "3" := (Except.ok.inj hk).symm
  obtain rfl : l = "3" := (Except.ok.inj hl).symm
  obtain ⟨group, hgroup, halone⟩ := hempty hnil
  obtain ⟨page, hpage, hagree⟩ := halone (.ofTables "memory" [("orders",
    Source.childrenOf placedOrders "3")] true) (Source.lists_visible_ofTables rfl (by decide)) []
  exact ⟨groups, group, page, hgroups, hgroup, hpage, hagree.mpr hoffset⟩

/-- The only order of the first parent. -/
def onlyOrder : List Row := [[("id", .ofNat 10), (parentKeyColumn, .ofNat 1)]]

/-- One row behind the first. -/
def behindFirst : Arguments :=
  [("first", .number (.whole 1)), ("after", .string (Cursor.ofOffset 0).text)]

/-- Behind the only order of a parent, the group of this parent tells of no rows before it, and the
page of its rows alone does. -/
theorem emptyPages_differ_behindFirst :
    (pagedOrders onlyOrder).source.PagesByKey "orders" true onlyOrder ∧
    (pagedOrders (Source.childrenOf onlyOrder "1")).source.Lists "orders" true
      ((Source.childrenOf onlyOrder "1").map Row.visible) ∧
    ∃ q groups group page,
      (pagedOrders onlyOrder).compose behindFirst () (some fourParents) = .ok q ∧
      Source.page q.statement (Source.childrenOf onlyOrder "1") = [] ∧
      (((pagedOrders onlyOrder).resolveNested behindFirst () fourParents).after []).1 =
        .ok groups ∧
      groups.get? "1" = some (.connection group) ∧
      (((pagedOrders (Source.childrenOf onlyOrder "1")).resolve behindFirst ()).after []).1 =
        .ok (.connection page) ∧
      group.pageInfo ≠ page.pageInfo :=
  ⟨Source.pagesByKey_of_stores (by decide) (Source.stores_ofTables rfl),
    Source.lists_visible_ofTables rfl (by decide), _, _, _, _, rfl, rfl, rfl, rfl, rfl, by decide⟩

end Resolver

end RelaySql
