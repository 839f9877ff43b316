import Mathlib.Tactic.FinCases
import RelaySql.Graph.Loading
import RelaySql.Proofs.Resolver.Keyed

/-!
# Loads — a batch of rows is loaded row by row

A load is resolved once for all the rows it is below, at every depth of the tree of loads.  Over
sources that hold rows, or always fail, this changes nothing: each row gets the value that it would
get if it were loaded alone.

* `Load.storeAll_rowwise`: loads that go row by row are stored row by row.
* `Load.values_rowwise`: one level of loads goes row by row when the loads below it do.
* `NestedField.values_alone`: a nested field of a batch has the values of its rows alone.
-/

namespace RelaySql

/-! ### Columns of the rows' own -/

/-- A column that neither statements nor loads add. -/
def IsOrdinary (column : String) : Prop := column.toList.head? ≠ some '$'

instance (column : String) : Decidable (IsOrdinary column) :=
  inferInstanceAs (Decidable (column.toList.head? ≠ some '$'))

theorem IsOrdinary.not_internal {column : String} (h : IsOrdinary column) :
    isInternal column = false := by
  rw [Bool.eq_false_iff]
  intro hi
  simp only [isInternal, Bool.or_eq_true, decide_eq_true_eq] at hi
  rcases hi with (rfl | rfl) | rfl <;> exact h (by decide)

theorem IsOrdinary.ne_loaded {column : String} (h : IsOrdinary column) (key : String) :
    loadedColumn key ≠ column := by
  rintro rfl
  refine h ?_
  rw [loadedColumn, String.toList_append]
  rfl

namespace Row

/-- The rows have the same values in their ordinary columns. -/
def Same (row row' : Row) : Prop :=
  ∀ column, IsOrdinary column → Fields.get? row column = Fields.get? row' column

theorem Same.trans {a b c : Row} (h : a.Same b) (h' : b.Same c) : a.Same c :=
  fun column ho => (h column ho).trans (h' column ho)

theorem same_visible (row : Row) : Same row.visible row :=
  fun _ ho => row.get?_visible ho.not_internal

theorem same_insert (row : Row) (key : String) (v : Json) :
    Same (Fields.insert row (loadedColumn key) v) row := by
  intro column ho
  rw [Fields.get?_insert, if_neg (ho.ne_loaded key)]

theorem Keyed.of_same {column : String} {kind : KeyKind} {row row' : Row} (h : row'.Keyed column kind)
    (ho : IsOrdinary column) (hs : row.Same row') : row.Keyed column kind := by
  obtain ⟨v, hv, hk⟩ := h
  exact ⟨v, (hs column ho).trans hv, hk⟩

/-- The row has the ordinary columns of one of the rows. -/
def Among (rows : List Row) (row : Row) : Prop := ∃ own ∈ rows, row.Same own

theorem Among.of_same {rows : List Row} {row row' : Row} (h : row.Among rows) (hs : row'.Same row) :
    row'.Among rows := by
  obtain ⟨own, hm, ho⟩ := h
  exact ⟨own, hm, hs.trans ho⟩

end Row

/-- The column has a value in each of the rows, all of one kind. -/
def Identifies (column : String) (rows : List Row) : Prop :=
  IsOrdinary column ∧ ∃ kind : KeyKind, ∀ row ∈ rows, row.Keyed column kind

theorem Resolution.refill_tabulate (keys : List String) (value : String → Resolution)
    (f : Row → Row) :
    refill (Fields.tabulate keys value)
      (((Fields.tabulate keys value).values.flatMap nodes).map f) =
      Fields.tabulate keys fun key => (value key).setNodes ((value key).nodes.map f) := by
  rw [Fields.values_tabulate]
  induction keys with
  | nil => rfl
  | cons key rest ih =>
      simp only [Fields.tabulate] at ih
      simp only [Fields.tabulate, List.map_cons, List.flatMap_cons, List.map_append, refill]
      rw [List.take_append_of_le_length (by simp), List.take_of_length_le (by simp),
        List.drop_append_of_le_length (by simp), List.drop_of_length_le (by simp), List.nil_append,
        ih]

namespace Load

variable {C : Type}

/-! ### Row by row -/

/-- A load of rows with the ordinary columns of these goes row by row: it always fails, or it gives
each row its own value. -/
def Rowwise (context : C) (table : String) (among : List Row) (load : Load C) : Prop :=
  ∃ outcome : Except Fault (Row → Json), ∀ rows : List Row, rows ≠ [] →
    (∀ row ∈ rows, row.Among among) → ∀ t,
    ((load.values context table rows).after t).1 = outcome.map (rows.map ·)

theorem store_map (key : String) (rows : List Row) (f : Row → Json) :
    store key rows (rows.map f) = rows.map fun row => Fields.insert row (loadedColumn key) (f row) := by
  rw [store, List.zipWith_map_right, List.zipWith_self]

/-- What a load stores in a row: its value, or the load's fault. -/
def storedOf (outcome : Except Fault (Row → Json)) (row : Row) : Json :=
  match outcome with
  | .ok value => value row
  | .error fault => fault.toJson

/-- **Loads that go row by row are stored row by row.** -/
theorem storeAll_rowwise {context : C} {table : String} {among : List Row} {loads : List (Load C)}
    (h : ∀ load ∈ loads, load.Rowwise context table among) :
    ∃ f : Row → Row, ∀ rows : List Row, (∀ row ∈ rows, row.Among among) → ∀ t,
      ((storeAll context table rows loads).after t).1 = .ok (rows.map f) := by
  induction loads with
  | nil =>
      refine ⟨id, fun rows _ t => ?_⟩
      rw [storeAll, Run.after_pure, List.map_id]
  | cons load rest ih =>
      obtain ⟨⟨outcome, hload⟩, hrest⟩ := List.forall_mem_cons.mp h
      obtain ⟨f, hf⟩ := ih hrest
      refine ⟨fun row => f (Fields.insert row (loadedColumn load.key) (storedOf outcome row)),
        fun rows hrows t => ?_⟩
      by_cases hnil : rows = []
      · simp only [storeAll, hnil, if_true, List.map_nil]
        rfl
      · have hcaught : ((tryCatch (load.values context table rows) fun fault =>
            pure (rows.map fun _ => fault.toJson)).after t).1 = .ok (rows.map (storedOf outcome)) := by
          rw [Run.tryCatch_result, hload rows hnil hrows]
          cases outcome <;> rfl
        obtain ⟨u, hu⟩ := Run.after_bind_of_ok (f := fun values =>
          storeAll context table (store load.key rows values) rest) hcaught
        simp only [storeAll, hnil, if_false]
        rw [hu, store_map, hf, List.map_map]
        · rfl
        · intro row hm
          obtain ⟨own, ho, rfl⟩ := List.mem_map.mp hm
          exact (hrows own ho).of_same (Row.same_insert own load.key (storedOf outcome own))

/-- The value that a row reads from values by key. -/
def valueOf (p : ParentBatch) (single : Bool) (value : String → Resolution) (row : Row) : Json :=
  match p.keyOf row with
  | .ok key => if single then (value key).firstJson else (value key).toJson
  | .error _ => .null

theorem valuesOf_tabulate {p : ParentBatch} {texts : List String} (ht : p.texts = .ok texts)
    (single : Bool) (value : String → Resolution) :
    valuesOf p single (Fields.tabulate texts.eraseDups value) =
      .ok (p.rows.map (valueOf p single value)) := by
  rw [valuesOf, Except.mapM_eq_ok, List.forall₂_map_right_iff, List.forall₂_same]
  intro row hm
  obtain ⟨key, hkey, hk⟩ := Except.mem_of_mapM_eq_ok ht hm
  simp only [hk, valueOf, bind, Except.bind, Fields.get?_tabulate, List.mem_eraseDups, hkey, if_true]
  rfl

/-- **One level of loads goes row by row when the loads below it do.** -/
theorem values_rowwise {context : C} {table key column : String} {single : Bool}
    {resolver : Resolver C} {arguments : Arguments} {below : List (Load C)} {among : List Row}
    {totals : Bool} {stored : List Row} (hcolumn : Identifies column among)
    (hsource : resolver.source.Stores resolver.table totals stored)
    (hstored : ∀ row ∈ stored, Fields.get? row totalColumn = none)
    (hbelow : ∀ load ∈ below, load.Rowwise context resolver.table stored) :
    (mk key column single resolver arguments below).Rowwise context table among := by
  obtain ⟨ho, kind, hkind⟩ := hcolumn
  obtain ⟨f, hf⟩ := storeAll_rowwise hbelow
  obtain ⟨outcome, hnodes, houtcome⟩ := Resolver.resolveNested_keyed arguments context table
    column kind hsource hstored
  have hkeyed : ∀ rows : List Row, (∀ row ∈ rows, row.Among among) →
      ∀ row ∈ rows, row.Keyed column kind := by
    intro rows hrows row hm
    obtain ⟨own, hown, hs⟩ := hrows row hm
    exact (hkind own hown).of_same ho hs
  cases outcome with
  | error e =>
      refine ⟨.error e, fun rows hne hrows t => ?_⟩
      obtain ⟨texts, -, hresult⟩ := houtcome rows hne (hkeyed rows hrows) t
      rw [values]
      exact Run.after_bind_of_error hresult
  | ok value =>
      refine ⟨.ok (valueOf ⟨table, column, []⟩ single fun key =>
        (value key).setNodes ((value key).nodes.map f)), fun rows hne hrows t => ?_⟩
      obtain ⟨texts, ht, hresult⟩ := houtcome rows hne (hkeyed rows hrows) t
      -- the rows below are stored rows without the columns that statements add
      have hchildren : ∀ row ∈ (Fields.tabulate texts.eraseDups value).values.flatMap
          Resolution.nodes, row.Among stored := by
        intro row hm
        obtain ⟨r, hr, hrow⟩ := List.mem_flatMap.mp hm
        rw [Fields.values_tabulate] at hr
        obtain ⟨key, -, rfl⟩ := List.mem_map.mp hr
        obtain ⟨own, hown, rfl⟩ := hnodes value rfl key row hrow
        exact ⟨own, hown, Row.same_visible own⟩
      -- the groups, what is loaded below them, and the value of each row
      rw [values]
      obtain ⟨u, hu⟩ := Run.after_bind_of_ok (f := _) hresult
      rw [hu]
      obtain ⟨u', hu'⟩ := Run.after_bind_of_ok (f := _) (hf _ hchildren u)
      rw [hu', Resolution.refill_tabulate, Run.after_lift, valuesOf_tabulate ht]
      rfl

/-! ### Trees of loads -/

/-- A tree of loads whose rows can be told apart: the column that a load is correlated through
identifies the rows above it, and its source fails whenever it is asked, or answers from the rows
that it stores, which tell no size.  The loads below it meet the stored rows. -/
inductive Separable : List Row → Load C → Prop where
  | failing {rows : List Row} {key column : String} {single : Bool} {resolver : Resolver C}
      {arguments : Arguments} {below : List (Load C)} {fault : SourceFault}
      (hcolumn : Identifies column rows) (hsource : resolver.source.Fails fault) :
      Separable rows (mk key column single resolver arguments below)
  | storing {rows : List Row} {key column : String} {single : Bool} {resolver : Resolver C}
      {arguments : Arguments} {below : List (Load C)} {totals : Bool} {stored : List Row}
      (hcolumn : Identifies column rows)
      (hsource : resolver.source.Stores resolver.table totals stored)
      (hstored : ∀ row ∈ stored, Fields.get? row totalColumn = none)
      (hbelow : ∀ load ∈ below, Separable stored load) :
      Separable rows (mk key column single resolver arguments below)

/-- A tree of loads goes row by row. -/
theorem Separable.rowwise {rows : List Row} {load : Load C} (h : load.Separable rows) (context : C)
    (table : String) : load.Rowwise context table rows := by
  induction h generalizing table with
  | failing hcolumn hsource =>
      obtain ⟨ho, kind, hkind⟩ := hcolumn
      obtain ⟨e, he⟩ := Resolver.resolveNested_fails _ context table _ kind hsource
      refine ⟨.error e, fun rows hne hrows t => ?_⟩
      rw [values]
      refine Run.after_bind_of_error (he rows hne (fun row hm => ?_) t)
      obtain ⟨own, hown, hs⟩ := hrows row hm
      exact (hkind own hown).of_same ho hs
  | storing hcolumn hsource hstored _ ih =>
      exact values_rowwise hcolumn hsource hstored fun load hm => ih load hm _

end Load

namespace NestedField

variable {C : Type}

/-- **Batched loading agrees with loading each parent alone.**  A nested field of a list of rows,
with everything selected below it, fails exactly as it does for each row alone, or gives each row
the value that it has alone. -/
theorem values_alone {f : NestedField C} {key : String} {occurrences : List SelectedField}
    {rows : List Row} (h : (f.planner key occurrences).Separable rows) (hne : rows ≠ [])
    (context : C) (table : String) (t : Trace) :
    (∃ values, (((f.planner key occurrences).values context table rows).after t).1 = .ok values ∧
      List.Forall₂ (fun row value => ∀ u,
        (((f.planner key occurrences).values context table [row]).after u).1 = .ok [value])
        rows values) ∨
    (∃ fault, (((f.planner key occurrences).values context table rows).after t).1 = .error fault ∧
      ∀ row ∈ rows, ∀ u,
        (((f.planner key occurrences).values context table [row]).after u).1 = .error fault) := by
  obtain ⟨outcome, houtcome⟩ := h.rowwise context table
  have hself : ∀ row ∈ rows, row.Among rows := fun row hm => ⟨row, hm, fun _ _ => rfl⟩
  have hone : ∀ row ∈ rows, ∀ u,
      (((f.planner key occurrences).values context table [row]).after u).1 =
        outcome.map ([row].map ·) := by
    intro row hm
    refine houtcome [row] (List.cons_ne_nil _ _) fun other ho => ?_
    rw [List.mem_singleton.mp ho]
    exact hself row hm
  cases outcome with
  | ok value =>
      refine .inl ⟨rows.map value, houtcome rows hne hself t, ?_⟩
      rw [List.forall₂_map_right_iff, List.forall₂_same]
      exact hone
  | error fault => exact .inr ⟨fault, houtcome rows hne hself t, hone⟩

/-- Orders of two users, and their items. -/
def ordersAndItems : Fields (List Row) :=
  [("order", [[(parentKeyColumn, .ofNat 2), ("id", .string "c")],
      [(parentKeyColumn, .ofNat 1), ("id", .string "a")],
      [(parentKeyColumn, .ofNat 1), ("id", .string "b")]]),
    ("item", [[(parentKeyColumn, .string "a"), ("sku", .ofNat 7)],
      [(parentKeyColumn, .string "c"), ("sku", .ofNat 8)],
      [(parentKeyColumn, .string "a"), ("sku", .ofNat 9)]])]

/-- A field of these rows. -/
def ofOrdersAndItems (table : String) (paginated : Bool) : Resolver Unit :=
  ⟨table, some fun _ _ _ _ => .ok "TRUE", none, [⟨"id", .ascending⟩], paginated,
    .ofTables "memory" ordersAndItems true⟩

/-- The orders of a user in pages, each with its items. -/
def orders : NestedField Unit :=
  .mk "id" false (ofOrdersAndItems "order" true)
    [("items", .mk "id" false (ofOrdersAndItems "item" false) [])]

/-- The first order of a user, with its items. -/
def firstOrder : List SelectedField :=
  [⟨"orders", "orders", [("first", .number (.whole 1))],
    [.field "edges" "edges" [] [.field "node" "node" [] [.field "items" "items" [] []]]]⟩]

/-- Three users, two of them the same. -/
def threeUsers : List Row := [[("id", .ofNat 1)], [("id", .ofNat 2)], [("id", .ofNat 1)]]

theorem values_alone_firstOrder :
    ∃ values, (((orders.planner "orders" firstOrder).values () "user" threeUsers).after []).1 =
      .ok values ∧
      List.Forall₂ (fun row value => ∀ u,
        (((orders.planner "orders" firstOrder).values () "user" [row]).after u).1 = .ok [value])
        threeUsers values := by
  have hitems : ((NestedField.mk "id" false (ofOrdersAndItems "item" false) []).planner "items"
      [⟨"items", "items", [], []⟩]).Separable (ordersAndItems.get? "order" |>.getD []) := by
    refine .storing ⟨by decide, .strings, ?_⟩ (Source.stores_ofTables rfl) ?_ ?_
    · intro row hm
      fin_cases hm <;> exact ⟨_, rfl, _, rfl⟩
    · decide
    · intro load hm
      cases hm
  have horders : (orders.planner "orders" firstOrder).Separable threeUsers := by
    refine .storing ⟨by decide, .numbers, ?_⟩ (Source.stores_ofTables rfl) ?_ ?_
    · intro row hm
      fin_cases hm <;> exact ⟨_, rfl, _, rfl⟩
    · decide
    · intro load hm
      obtain rfl := List.mem_singleton.mp hm
      exact hitems
  rcases values_alone horders (by decide) () "user" [] with h | ⟨fault, hfault, -⟩
  · exact h
  · cases hfault

end NestedField

end RelaySql
