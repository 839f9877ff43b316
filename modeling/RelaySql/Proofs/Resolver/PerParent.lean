import RelaySql.Proofs.Resolver.Keyed

/-!
# Resolvers — a batch pages the rows of each parent alone

One statement asks for the rows of all parents of a batch, with the same window for each.  The group
of a parent is what the field would resolve to at top level, over a source that lists the rows of
this parent and no others.

* `Resolver.compose_unjoined`: the query composed under a batch is composed without it too, but for
  the join.
* `ComposedQuery.finish_congr`: rows make a value by what is visible of them and by the size they
  tell.
* `Resolver.finishGroup_eq_resolve`: the group of one parent is what the field resolves to over its
  rows.
* `Resolver.resolveNested_eq_resolve`: so are all groups of a batch.

A parent for whom no row is returned has the empty group, which tells of no rows on either side.  The
page at top level is empty too, but may tell of rows before it.
-/

namespace RelaySql

namespace ComposedQuery

/-- The query without its join. -/
def unjoined (q : ComposedQuery) : ComposedQuery :=
  { q with statement := { q.statement with join := none } }

/-- **What a value depends on** is what is visible of the rows, and the size that they all tell, or
none. -/
theorem finish_congr (q : ComposedQuery) {rows rows' : List Row} {t : Option Nat}
    (hv : rows'.map Row.visible = rows.map Row.visible)
    (ht : ∀ row ∈ rows, PageWindow.total row = .ok t)
    (ht' : ∀ row ∈ rows', PageWindow.total row = .ok t) : q.finish rows' = q.finish rows := by
  have hlength : rows'.length = rows.length := by
    simpa only [List.length_map] using congrArg List.length hv
  have hnil : rows' = [] ↔ rows = [] := by
    rw [← List.length_eq_zero_iff, hlength, List.length_eq_zero_iff]
  rcases hw : q.window with _ | window
  · simp only [finish, hw, hv]
  · simp only [finish, hw, PageWindow.place_eq window ht, PageWindow.place_eq window ht',
      ← PageWindow.shown_map, hv, hlength, hnil]

/-- A value of no rows has no nodes. -/
theorem nodes_finish_nil {q : ComposedQuery} {value : Resolution} (h : q.finish [] = .ok value) :
    value.nodes = [] := by
  refine List.eq_nil_iff_forall_not_mem.mpr fun node hn => ?_
  obtain ⟨row, hrow, -⟩ := nodes_finish h node hn
  cases hrow

end ComposedQuery

namespace Resolver

variable {C : Type} {r : Resolver C} {args : Arguments} {context : C} {parents : ParentBatch}
  {q : ComposedQuery} {totals : Bool}

/-- The field over another source. -/
def withSource (r : Resolver C) (source : Source) : Resolver C := { r with source }

/-- **A batch enters a query only by its join.** -/
theorem compose_unjoined (hq : r.compose args context (some parents) = .ok q) :
    r.compose args context none = .ok q.unjoined := by
  obtain ⟨join, filter, -, hf, ⟨hp, rfl⟩ | ⟨hp, request, b, hr, hb, rfl⟩⟩ := compose_eq_ok hq
  · simp only [compose_eq, joinFor, hf, query, hp]
    rfl
  · simp only [compose_eq, joinFor, hf, query, hp, if_true]
    simp only [bind, Except.bind, hr, hb]
    rfl

/-- **The group of a parent is the page of its rows alone.**  If no row is returned for the parent,
neither has any. -/
theorem finishGroup_eq_resolve (hq : r.compose args context (some parents) = .ok q)
    {rows answer : List Row}
    (hanswer : List.Forall₂ (Row.ReturnedFrom (q.statement.countTotal && totals) rows.length)
      (Source.page q.statement rows) answer)
    {group : Resolution} (hgroup : q.finishGroup answer = .ok group)
    {alone : Source} (halone : alone.Lists r.table totals (rows.map Row.visible)) (u : Trace) :
    ∃ value, (((r.withSource alone).resolve args context).after u).1 = .ok value ∧
      (Source.page q.statement rows ≠ [] → group = value) ∧
      (Source.page q.statement rows = [] → group.nodes = [] ∧ value.nodes = []) := by
  have hnil : Source.page q.statement rows = [] ↔ answer = [] := by
    rw [← List.length_eq_zero_iff, hanswer.length_eq, List.length_eq_zero_iff]
  have hnested := Source.returnedAs_of_returnedFrom hanswer
  rw [← Source.page_map] at hnested
  have hunjoined : (r.withSource alone).compose args context none = .ok q.unjoined :=
    compose_unjoined hq
  obtain ⟨listed, v, htop, hresolve⟩ := resolve_of_lists hunjoined halone u
  rw [List.length_map] at htop
  have hv := Source.map_visible_of_returnedAs htop
  have ht := Source.total_of_mem_returned htop
  obtain ⟨value, hvalue⟩ := ComposedQuery.finish_page hq hv ht
  have hvisible := hv.trans (Source.map_visible_of_returnedAs hnested).symm
  rw [hresolve, hnil, ne_eq, hnil]
  refine ⟨value, hvalue, fun hne => ?_, fun hnil => ?_⟩
  · rw [ComposedQuery.finishGroup, if_neg hne,
      ← q.finish_congr hvisible (Source.total_of_mem_returned hnested) ht, hvalue] at hgroup
    exact (Except.ok.inj hgroup).symm
  · rw [ComposedQuery.finishGroup, if_pos hnil] at hgroup
    obtain rfl : listed = [] := by simpa [hnil] using hvisible
    exact ⟨Except.ok.inj hgroup ▸ q.nodes_empty, ComposedQuery.nodes_finish_nil hvalue⟩

/-- **The groups of a batch** are the values of what the source returned for each key. -/
theorem resolveNested_of_pagesByKey (hq : r.compose args context (some parents) = .ok q)
    {stored : List Row} (hsource : r.source.PagesByKey r.table totals stored) {kind : KeyKind}
    (hkeyed : ∀ row ∈ parents.rows, row.Keyed parents.keyColumn kind) (hrows : parents.rows ≠ [])
    (t : Trace) :
    ∃ (texts : List String) (part : String → List Row) (value : String → Resolution),
      parents.texts = .ok texts ∧
      ((r.resolveNested args context parents).after t).1 =
        .ok (Fields.tabulate texts.eraseDups value) ∧
      ∀ key ∈ texts, q.finishGroup (part key) = .ok (value key) ∧
        List.Forall₂ (Row.ReturnedFrom (q.statement.countTotal && totals)
            (Source.childrenOf stored (kind.literal key)).length)
          (Source.page q.statement (Source.childrenOf stored (kind.literal key))) (part key) := by
  obtain ⟨keys, texts, hdistinct, ht, hnames, hkeys⟩ := ParentBatch.distinctKeys_of_keyed hkeyed
  obtain ⟨htable, -⟩ := join_of_compose hq
  obtain ⟨join, hjoin, hparent⟩ := parentKeys_of_compose hq hdistinct
  obtain ⟨part, hanswer, hpart⟩ :=
    hsource (t.statements r.source.name) q.statement join htable hjoin
  rw [hparent, hkeys] at hanswer hpart
  rw [List.flatMap_map] at hanswer
  have hpart := fun key hm =>
    hpart (kind.literal key) (List.mem_map_of_mem (List.mem_eraseDups.mpr hm))
  have hvalue : ∀ key ∈ texts, ∃ value, q.finishGroup (part (kind.literal key)) = .ok value :=
    fun key hm => ComposedQuery.finishGroup_returnedFrom hq (hpart key hm)
  have htext : ∀ key ∈ texts, ∀ row ∈ part (kind.literal key), row.parentText? = some key := by
    intro key hm row hrow
    obtain ⟨v, hk, hl⟩ := hnames key hm
    exact Source.parentText_of_returnedFrom (hpart key hm) hk hl hrow
  -- for `choose!`, whose functions are total
  have : Nonempty Resolution := ⟨q.empty⟩
  choose! value hvalue using hvalue
  exact ⟨texts, fun key => part (kind.literal key), value, ht,
    resolveNested_of_flatMap hq ht hrows hanswer htext hvalue,
    fun key hm => ⟨hvalue key hm, hpart key hm⟩⟩

/-- **A batch pages the rows of each parent alone.**  Over a source that answers key by key, the nested
resolution of a batch keyed by values of one kind succeeds.  A parent for whom rows are returned has
the group to which the field resolves over any source that lists this parent's rows; for any other
parent neither has rows. -/
theorem resolveNested_eq_resolve (hq : r.compose args context (some parents) = .ok q)
    {stored : List Row} (hsource : r.source.PagesByKey r.table totals stored) {kind : KeyKind}
    (hkeyed : ∀ row ∈ parents.rows, row.Keyed parents.keyColumn kind) (t : Trace) :
    ∃ groups, ((r.resolveNested args context parents).after t).1 = .ok groups ∧
      ∀ row ∈ parents.rows, ∃ v key l group, parents.keyValue row = .ok v ∧ keyText v = .ok key ∧
        Sql.literal v = .ok l ∧ groups.get? key = some group ∧
        ∀ alone : Source,
          alone.Lists r.table totals ((Source.childrenOf stored l).map Row.visible) →
          ∀ u, ∃ value, (((r.withSource alone).resolve args context).after u).1 = .ok value ∧
            (Source.page q.statement (Source.childrenOf stored l) ≠ [] → group = value) ∧
            (Source.page q.statement (Source.childrenOf stored l) = [] →
              group.nodes = [] ∧ value.nodes = []) := by
  by_cases hrows : parents.rows = []
  · exact ⟨[], by rw [resolveNested_of_rows_nil hq hrows], by simp [hrows]⟩
  obtain ⟨texts, part, value, ht, hgroups, hvalue⟩ :=
    resolveNested_of_pagesByKey hq hsource hkeyed hrows t
  refine ⟨_, hgroups, fun row hrow => ?_⟩
  obtain ⟨v, hv, hkind⟩ := hkeyed row hrow
  obtain ⟨key, hk, hl⟩ := KeyKind.literal_of_holds hkind
  have hown : parents.keyValue row = .ok v := by simp only [ParentBatch.keyValue, hv]
  obtain ⟨text, hm, htext⟩ := Except.mem_of_mapM_eq_ok ht hrow
  obtain rfl : key = text := by
    rw [ParentBatch.keyOf, hown] at htext
    exact Except.ok.inj (hk.symm.trans htext)
  obtain ⟨hgroup, hpart⟩ := hvalue key hm
  refine ⟨v, key, _, value key, hown, hk, hl, ?_, fun alone halone u => ?_⟩
  · rw [Fields.get?_tabulate, if_pos (List.mem_eraseDups.mpr hm)]
  · exact finishGroup_eq_resolve hq hpart hgroup halone u

/-- Orders of two of four parents, mixed. -/
def placedOrders : List Row :=
  [[("id", .ofNat 20), (parentKeyColumn, .ofNat 2)], [("id", .ofNat 10), (parentKeyColumn, .ofNat 1)],
    [("id", .ofNat 11), (parentKeyColumn, .ofNat 1)], [("id", .ofNat 21), (parentKeyColumn, .ofNat 2)]]

/-- A field that serves orders in pages, from a source that counts them. -/
def pagedOrders (orders : List Row) : Resolver Unit :=
  ⟨"orders", some fun _ _ _ _ => .ok "users.id = orders.user_id", none, [⟨"id", .ascending⟩], true,
    .ofTables "memory" [("orders", orders)] true⟩

/-- One row of each page. -/
def oneEach : Arguments := [("first", .number (.whole 1))]

theorem resolveNested_eq_resolve_oneEach :
    ∃ groups value,
      (((pagedOrders placedOrders).resolveNested oneEach () fourParents).after []).1 = .ok groups ∧
      (((pagedOrders (Source.childrenOf placedOrders "1")).resolve oneEach ()).after []).1 =
        .ok value ∧
      groups.get? "1" = some value ∧ value.nodes = [[("id", .ofNat 10)]] := by
  obtain ⟨q, value, hq, hpage, hvalue, hnodes⟩ : ∃ q value,
      (pagedOrders placedOrders).compose oneEach () (some fourParents) = .ok q ∧
      Source.page q.statement (Source.childrenOf placedOrders "1") ≠ [] ∧
      (((pagedOrders (Source.childrenOf placedOrders "1")).resolve oneEach ()).after []).1 =
        .ok value ∧
      value.nodes = [[("id", .ofNat 10)]] :=
    ⟨_, _, rfl, by decide, rfl, rfl⟩
  have hstored : ∀ row ∈ placedOrders, Fields.get? row totalColumn = none := by decide
  have hkeyed : ∀ row ∈ fourParents.rows, row.Keyed fourParents.keyColumn .numbers := by
    simp [fourParents, Row.Keyed, KeyKind.Holds, Fields.get?, Json.ofNat]
  obtain ⟨groups, hgroups, hrows⟩ := resolveNested_eq_resolve hq
    (Source.pagesByKey_of_stores hstored (Source.stores_ofTables rfl)) hkeyed []
  obtain ⟨v, key, l, group, hv, hk, hl, hgroup, halone⟩ :=
    hrows [("id", .ofNat 1)] (by decide)
  obtain rfl : v = _ := (Except.ok.inj hv).symm
  obtain rfl : key = "1" := (Except.ok.inj hk).symm
  obtain rfl : l = "1" := (Except.ok.inj hl).symm
  obtain ⟨other, hother, heq, -⟩ := halone (.ofTables "memory" [("orders",
    Source.childrenOf placedOrders "1")] true) (Source.lists_visible_ofTables rfl (by decide)) []
  obtain rfl : other = value := Except.ok.inj (hother.symm.trans hvalue)
  exact ⟨groups, other, hgroups, hvalue, heq hpage ▸ hgroup, hnodes⟩

end Resolver

end RelaySql
