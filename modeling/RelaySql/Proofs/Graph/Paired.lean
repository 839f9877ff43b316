import RelaySql.Proofs.Graph.Failing

/-!
# Loading — rows beside those where sources fail

Where some sources fail, the rows of a layer are loaded as before, but for the columns of the nested
fields that these serve, and of those below them.  A row and the one in its place are keyed in the
same way each time a nested field is loaded, so its statement and its groups are the same.

* `Layer.reached_failing`: the rows are keyed in the same way when a response key has its turn.
* `Layer.column_failing`: what a row holds in the column of a response key, beside what it holds
  where sources fail.
* `FieldResolver.load_failing`: the value of a field with a resolver, beside what it is where sources
  fail.
-/

namespace RelaySql

/-! ### What rows hold -/

/-- The row got values that are no keys in the columns of these response keys, and kept the others. -/
structure Row.StoredFrom (keys : List String) (row stored : Row) : Prop where
  kept : row.KeptBut keys stored
  keyless : ∀ key ∈ keys, stored.Keyless (loadedColumn key)

theorem Row.StoredFrom.keyedAlike {keys : List String} {row stored stored' : Row}
    (h : row.StoredFrom keys stored) (h' : row.StoredFrom keys stored') :
    stored.KeyedAlike stored' := by
  intro column
  by_cases hc : ∃ key ∈ keys, loadedColumn key = column
  · obtain ⟨key, hkey, rfl⟩ := hc
    exact .inr ⟨h.keyless key hkey, h'.keyless key hkey⟩
  · push Not at hc
    exact .inl ((h.kept column hc).trans (h'.kept column hc).symm)

namespace Load

variable {C : Type} (context : C) (table : String)

theorem toOption_keyText_servedJson (single : Bool) (r : Resolution) :
    (keyText (servedJson single r)).toOption = none := by
  cases single with
  | true =>
      simp only [servedJson, Resolution.firstJson, if_true]
      cases r.nodes.head? <;> rfl
  | false => cases r <;> rfl

/-- What a load yields is no key. -/
theorem toOption_keyText_yielded {context : C} {table : String} {load : Load C} {batch : List Row}
    {u : Trace} {v : Json} (hv : v ∈ load.yielded context table batch u) :
    (keyText v).toOption = none := by
  obtain ⟨key, column, single, resolver, arguments, below⟩ := load
  obtain ⟨fault, rfl⟩ | rfl | ⟨r, -, rfl⟩ := of_mem_yielded hv
  · rfl
  · rfl
  · exact toOption_keyText_servedJson single r

/-- **What loads are stored in**: the columns of their response keys, with values that are no
keys. -/
theorem storeAll_stored (loads : List (Load C)) (rows : List Row) (t : Trace) :
    ∃ stored u, (storeAll context table rows loads).after t = (.ok stored, u) ∧
      List.Forall₂ (Row.StoredFrom (loads.map key)) rows stored := by
  induction loads generalizing rows t with
  | nil =>
      refine ⟨rows, t, rfl, List.forall₂_same.mpr fun row _ => ⟨fun _ _ => rfl, ?_⟩⟩
      exact fun key hkey => nomatch hkey
  | cons load rest ih =>
      by_cases hnil : rows = []
      · subst hnil
        exact ⟨[], t, storeAll_nil_rows _ t, .nil⟩
      · have hlength := length_yielded context table load rows t
        obtain ⟨stored, u, hstored, hrest⟩ :=
          ih (store load.key rows (load.yielded context table rows t))
            ((load.values context table rows).after t).2
        refine ⟨stored, u, (storeAll_cons load rest hnil t).trans hstored, ?_⟩
        have hl : rows.length = stored.length := by
          rw [← hrest.length_eq, store, List.length_zipWith, hlength, Nat.min_self]
        refine forall₂_of_getElem? hl fun i row row' hrow hrow' => ?_
        obtain ⟨v, hv, hfirst⟩ := getElem?_store load.key hlength hrow
        have h := rel_of_getElem? hrest hfirst hrow'
        have hkeyless := toOption_keyText_yielded (List.mem_of_getElem? hv)
        refine ⟨fun column hc => ?_, fun key hkey => ?_⟩
        · obtain ⟨hne, hothers⟩ := List.forall_mem_cons.mp hc
          rw [h.kept column hothers, Fields.get?_insert, if_neg hne]
        · by_cases hlater : key ∈ rest.map Load.key
          · exact h.keyless key hlater
          · obtain rfl : key = load.key := (List.mem_cons.mp hkey).resolve_right hlater
            refine ⟨v, ?_, hkeyless⟩
            rw [h.kept, Fields.get?_insert_self]
            rintro other hother heq
            exact hlater (loadedColumn_injective heq ▸ hother)

/-- The value for the rows of a key. -/
def servedAt (single : Bool) (groups : Fields Resolution) (key : String) : Json :=
  ((groups.get? key).map (servedJson single)).getD .null

/-- The value for each row, by its key. -/
theorem valuesOf_eq (parents : ParentBatch) (single : Bool) (groups : Fields Resolution) :
    valuesOf parents single groups =
      (parents.rows.mapM parents.keyOf).map (List.map (servedAt single groups)) := by
  rw [← Except.mapM_map, valuesOf]
  congr 1
  funext row
  cases parents.keyOf row with
  | error e => rfl
  | ok key =>
      refine congrArg Except.ok ?_
      show _ = servedAt single groups key
      rw [servedAt]
      cases groups.get? key <;> rfl

end Load

namespace Resolution

/-- Groups that get rows back that are related get them back at the same keys. -/
theorem refill_of_forall₂ {R : Row → Row → Prop} {all all' : List Row}
    (h : List.Forall₂ R all all') (groups : Fields Resolution) (key : String) :
    ((refill groups all).get? key = none ∧ (refill groups all').get? key = none) ∨
      ∃ own ∈ groups.values, ∃ rows rows', List.Forall₂ R rows rows' ∧
        (refill groups all).get? key = some (own.setNodes rows) ∧
        (refill groups all').get? key = some (own.setNodes rows') := by
  induction groups generalizing all all' with
  | nil => exact .inl ⟨rfl, rfl⟩
  | cons group rest ih =>
      obtain ⟨k, first⟩ := group
      simp only [refill, Fields.get?]
      split
      · exact .inr ⟨first, List.mem_cons_self, _, _, List.forall₂_take first.nodes.length h, rfl, rfl⟩
      · obtain hnone | ⟨own, hown, hrows⟩ := ih (List.forall₂_drop first.nodes.length h)
        · exact .inl hnone
        · exact .inr ⟨own, List.mem_cons_of_mem _ hown, hrows⟩

end Resolution

namespace Layer

variable {C : Type} (context : C) (failures : Failures C)

/-- A row of the layer, and the row in its place where sources fail. -/
def Pairs (l : Layer C) (t : Trace) (row row' : Row) : Prop :=
  ∃ i : Nat, (l.rows context)[i]? = some row ∧ ((l.failing failures t).rows context)[i]? = some row'

theorem loads_failing (l : Layer C) (t : Trace) :
    (l.failing failures t).loads.map Load.key = l.loads.map Load.key := by
  rw [loads, loads, Load.keys_ofFields, Load.keys_ofFields, failing, Load.nestedKeys_allFailing]

theorem forall₂_rows (l : Layer C) (t : Trace) :
    List.Forall₂ (l.Pairs context failures t) (l.rows context)
      ((l.failing failures t).rows context) := by
  refine forall₂_of_getElem? ?_ fun i row row' hrow hrow' => ⟨i, hrow, hrow'⟩
  rw [length_rows, length_rows]
  rfl

/-- When a response key has its turn, the rows are keyed in the same way where sources fail. -/
theorem reached_failing (l : Layer C) (t : Trace) (key : String) :
    ∃ batch batch' u u', l.reached context key = (.ok batch, u) ∧
      (l.failing failures t).reached context key = (.ok batch', u') ∧
      batch.length = l.batch.length ∧ List.Forall₂ Row.KeyedAlike batch batch' := by
  have hkeys : ∀ l : Layer C, (l.loads.takeWhile (·.key ≠ key)).map Load.key =
      (l.loads.map Load.key).takeWhile (· ≠ key) := fun l => by
    rw [List.takeWhile_map]
    rfl
  obtain ⟨batch, u, hbatch, hrows⟩ := Load.storeAll_stored context l.table
    (l.loads.takeWhile (·.key ≠ key)) l.batch l.trace
  obtain ⟨batch', u', hbatch', hrows'⟩ := Load.storeAll_stored context l.table
    ((l.failing failures t).loads.takeWhile (·.key ≠ key)) l.batch t
  rw [hkeys] at hrows hrows'
  rw [loads_failing] at hrows'
  refine ⟨batch, batch', u, u', hbatch, hbatch', hrows.length_eq.symm, ?_⟩
  exact (forall₂_of_common hrows hrows').imp fun _ _ ⟨_, h, h'⟩ => h.keyedAlike h'

end Layer

/-! ### The values of a load -/

/-- The sources of the nested fields of the layer answer every statement regardless of those
before. -/
def Layer.Stateless {C : Type} (l : Layer C) : Prop :=
  ∀ used, NestedField.Uses l.nested used → used.source.Stateless

/-- Values of one shape, whose rows are in the same places of their layer: with the rows as they are
loaded, and as they are loaded where sources fail. -/
def ServedBeside {C : Type} (context : C) (failures : Failures C) (single paginated : Bool)
    (nested : List (String × NestedField C)) (positions : List SelectedField) (v v' : Json) : Prop :=
  ∃ (l : Layer C) (t : Trace) (own : Resolution) (rows rows' : List Row), l.nested = nested ∧
    l.positions = positions ∧ l.Stateless ∧ own.isConnection = paginated ∧
    List.Forall₂ (l.Pairs context failures t) rows rows' ∧
    v = servedJson single (own.setNodes rows) ∧ v' = servedJson single (own.setNodes rows')

/-- What a nested field holds beside what it holds where sources fail, both shown of a row: a fault
of its own; or the fault of its source, which fails there; or values of one shape. -/
inductive HeldBeside {C : Type} (context : C) (failures : Failures C) (single : Bool)
    (resolver : Resolver C) (nested : List (String × NestedField C))
    (positions : List SelectedField) : Json → Json → Prop where
  | fault (fault : Fault) (v' : Json) :
      HeldBeside context failures single resolver nested positions fault.toJson v'
  | failed {failure : List Statement → Statement → SourceFault}
      (hfailure : failures resolver = some failure) (history : List Statement) (s : Statement)
      (v : Json) :
      HeldBeside context failures single resolver nested positions v
        (Fault.source (failure history s)).toJson
  | none (hnone : failures resolver = none) :
      HeldBeside context failures single resolver nested positions .null .null
  | served (hnone : failures resolver = none) {v v' : Json}
      (h : ServedBeside context failures single resolver.paginated nested positions v v') :
      HeldBeside context failures single resolver nested positions v v'

namespace Load

variable {C : Type} {context : C} {failures : Failures C} {table key column : String}
  {single : Bool} {resolver : Resolver C} {arguments : Arguments} {below : List (Load C)}
  {nested : List (String × NestedField C)} {positions : List SelectedField} {rows : List Row}
  {u : Trace}

/-- A load fails when its resolution does. -/
theorem values_of_error {e : Fault}
    (h : ((resolver.resolveNested arguments context ⟨table, column, rows⟩).after u).1 = .error e) :
    (((mk key column single resolver arguments below).values context table rows).after u).1 =
      .error e := by
  rw [values]
  exact Run.after_bind_of_error h

/-- A load whose resolution does not fail. -/
theorem values_of_groups {groups : Fields Resolution} {children : List Row} {u₁ u₂ : Trace}
    (hgroups : (resolver.resolveNested arguments context ⟨table, column, rows⟩).after u =
      (.ok groups, u₁))
    (hchildren : (storeAll context resolver.table (groups.values.flatMap Resolution.nodes)
      below).after u₁ = (.ok children, u₂)) :
    ((mk key column single resolver arguments below).values context table rows).after u =
      (valuesOf ⟨table, column, rows⟩ single (Resolution.refill groups children), u₂) := by
  simp only [values, Run.after_bind, hgroups, hchildren, Run.after_lift]

/-- A load whose source fails: its query is composed as before, and its source fails. -/
theorem values_failed {failure : List Statement → Statement → SourceFault}
    (hfailure : failures resolver = some failure) {rows' : List Row} (hrows' : rows' ≠ [])
    (halike : List.Forall₂ Row.KeyedAlike rows rows') {groups : Fields Resolution}
    (hgroups : ((resolver.resolveNested arguments context ⟨table, column, rows⟩).after u).1 =
      .ok groups) (u' : Trace) :
    ∃ history s, (((mk key column single (resolver.failing failures) arguments below).values context
      table rows').after u').1 = .error (.source (failure history s)) := by
  obtain ⟨q, hq⟩ := Resolver.exists_query_of_resolveNested hgroups
  have hq' : resolver.compose arguments context (some ⟨table, column, rows'⟩) = .ok q := by
    rw [← Except.toOption_eq_some, ← Resolver.toOption_compose halike, hq]
    rfl
  obtain ⟨history, hfailed⟩ := Resolver.resolveNested_failed hfailure hrows' hq' u'
  exact ⟨history, q.statement, values_of_error hfailed⟩

/-- A load whose source does not fail: its groups and the keys of its rows are the same, and they get
the rows of the same layer back. -/
theorem values_kept (hnone : failures resolver = none) (hstateless : resolver.source.Stateless)
    {rows' : List Row} (halike : List.Forall₂ Row.KeyedAlike rows rows') {values : List Json}
    (hvalues : (((mk key column single resolver arguments
      (ofFields (NestedField.planners nested) positions)).values context table rows).after u).1 =
        .ok values) (u' : Trace) :
    ∃ (l : Layer C) (t : Trace) (groups : Fields Resolution) (keys : List String),
      l.nested = nested ∧ l.positions = positions ∧
      (∀ own ∈ groups.values, own.isConnection = resolver.paginated) ∧
      values = keys.map (servedAt single (Resolution.refill groups (l.rows context))) ∧
      (((mk key column single (resolver.failing failures) arguments
        (ofFields (NestedField.planners (NestedField.allFailing failures nested)) positions)).values
          context table rows').after u').1 =
        .ok (keys.map (servedAt single
          (Resolution.refill groups ((l.failing failures t).rows context)))) := by
  obtain ⟨groups, u₁, hgroups, hvalues⟩ := Run.after_bind_eq_ok hvalues
  obtain ⟨children, u₂, hchildren, hvalues⟩ := Run.after_bind_eq_ok hvalues
  rw [Run.after_lift, valuesOf_eq] at hvalues
  obtain ⟨keys, hkeys, rfl⟩ := Except.map_eq_ok.mp hvalues
  have hkeys' : (rows'.mapM (ParentBatch.mk table column rows').keyOf) = .ok keys := by
    rw [← Except.toOption_eq_some, ← Except.toOption_mapM
      (halike.imp fun _ _ h => ParentBatch.toOption_keyOf h), hkeys]
    rfl
  have hgroups' : ((((resolver.failing failures).resolveNested arguments context
      ⟨table, column, rows'⟩).after u').1).toOption = some groups := by
    rw [Resolver.resolveNested_failing hnone hstateless halike u u', hgroups]
    rfl
  rcases hresult : ((resolver.failing failures).resolveNested arguments context
    ⟨table, column, rows'⟩).after u' with ⟨e | groups', u₁'⟩ <;> rw [hresult] at hgroups'
  · cases hgroups'
  obtain rfl := Option.some.inj hgroups'
  let l : Layer C := ⟨nested, positions, resolver.table,
    groups'.values.flatMap Resolution.nodes, u₁⟩
  obtain ⟨w, hl⟩ := l.rows_after context
  obtain rfl := Except.ok.inj (congrArg Prod.fst (hchildren.symm.trans hl))
  obtain ⟨w', hl'⟩ := (l.failing failures u₁').rows_after context
  have hchildren' : (storeAll context (resolver.failing failures).table
      (groups'.values.flatMap Resolution.nodes) (ofFields (NestedField.planners
        (NestedField.allFailing failures nested)) positions)).after u₁' =
      (.ok ((l.failing failures u₁').rows context), w') := by
    rw [Resolver.table_failing]
    exact hl'
  have hshapes := Resolver.shapes_resolveNested (congrArg Prod.fst hgroups)
  refine ⟨l, u₁', groups', keys, rfl, rfl, fun own hown => (hshapes own hown).paginated, rfl, ?_⟩
  rw [values_of_groups hresult hchildren', valuesOf_eq, hkeys']
  rfl

/-- **What a load yields beside what it yields where sources fail.** -/
theorem yielded_failing (hstateless : resolver.source.Stateless)
    (hbelow : ∀ used, NestedField.Uses nested used → used.source.Stateless) {rows' : List Row}
    (hrows : rows ≠ []) (halike : List.Forall₂ Row.KeyedAlike rows rows') {u' : Trace} {i : Nat}
    {v v' : Json}
    (hv : ((mk key column single resolver arguments
      (ofFields (NestedField.planners nested) positions)).yielded context table rows u)[i]? = some v)
    (hv' : ((mk key column single (resolver.failing failures) arguments
      (ofFields (NestedField.planners (NestedField.allFailing failures nested)) positions)).yielded
        context table rows' u')[i]? = some v') :
    HeldBeside context failures single resolver nested positions v v' := by
  have hrows' : rows' ≠ [] := by
    rintro rfl
    exact hrows (List.forall₂_nil_right_iff.mp halike)
  simp only [yielded] at hv hv'
  split at hv
  swap
  · obtain ⟨parent, -, rfl⟩ := List.mem_map.mp (List.mem_of_getElem? hv)
    exact .fault _ v'
  next values hvalues =>
  cases hfailure : failures resolver with
  | some failure =>
      obtain ⟨groups, u₁, hgroups, -⟩ := Run.after_bind_eq_ok hvalues
      obtain ⟨history, s, hfailed⟩ :=
        values_failed hfailure hrows' halike (congrArg Prod.fst hgroups) u'
      rw [hfailed] at hv'
      obtain ⟨parent, -, rfl⟩ := List.mem_map.mp (List.mem_of_getElem? hv')
      exact .failed hfailure history s v
  | none =>
      obtain ⟨l, t, groups, keys, rfl, rfl, hpaginated, rfl, hvalues'⟩ :=
        values_kept hfailure hstateless halike hvalues u'
      rw [hvalues'] at hv'
      rw [List.getElem?_map, Option.map_eq_some_iff] at hv hv'
      obtain ⟨key, hkey, rfl⟩ := hv
      obtain ⟨key', hkey', rfl⟩ := hv'
      obtain rfl := Option.some.inj (hkey.symm.trans hkey')
      rw [servedAt, servedAt]
      obtain ⟨hnone, hnone'⟩ | ⟨own, hown, some₁, some₂, hsome, hr, hr'⟩ :=
        Resolution.refill_of_forall₂ (l.forall₂_rows context failures t) groups key
      · rw [hnone, hnone']
        exact .none hfailure
      · rw [hr, hr']
        exact .served hfailure
          ⟨l, t, own, some₁, some₂, rfl, rfl, hbelow, hpaginated own hown, hsome, rfl, rfl⟩

end Load

namespace Layer

variable {C : Type} {context : C} {failures : Failures C} {l : Layer C} {t : Trace}

/-- **What a row holds in the column of a response key**, beside what it holds where sources fail. -/
theorem column_failing (hstateless : l.Stateless) {row row' : Row}
    (h : l.Pairs context failures t row row') {key column : String} {first : SelectedField}
    {rest : List SelectedField} {single : Bool} {resolver : Resolver C}
    {nested : List (String × NestedField C)} (ho : l.occurrences key = first :: rest)
    (hn : Fields.get? l.nested first.name = some (.mk column single resolver nested)) :
    ∃ v v', Fields.get? row (loadedColumn key) = some v ∧
      Fields.get? row' (loadedColumn key) = some v' ∧
      HeldBeside context failures single resolver nested
        (rowFields resolver.paginated (first :: rest)) v v' := by
  obtain ⟨i, hi, hi'⟩ := h
  have ho' : (l.failing failures t).occurrences key = first :: rest := by
    rw [← ho]
    exact Load.occurring_allFailing failures l.nested l.positions key
  have hn' : Fields.get? (l.failing failures t).nested first.name =
      some (.mk column single (resolver.failing failures)
        (NestedField.allFailing failures nested)) := by
    rw [failing, NestedField.get?_allFailing, hn]
    rfl
  obtain ⟨v, hv, hcolumn⟩ := column_of_first ho hn hi
  obtain ⟨v', hv', hcolumn'⟩ := column_of_first ho' hn' hi'
  obtain ⟨batch, batch', u, u', hreached, hreached', hlength, halike⟩ :=
    l.reached_failing context failures t key
  refine ⟨v, v', hcolumn, hcolumn', ?_⟩
  have hrows : batch ≠ [] := by
    rw [← List.length_pos_iff, hlength, ← l.length_rows context]
    exact List.length_pos_of_mem (List.mem_of_getElem? hi)
  simp only [yields, NestedField.key_loadWith, hreached] at hv
  simp only [yields, NestedField.key_loadWith, hreached'] at hv'
  rw [NestedField.loadWith, Resolver.paginated_failing] at hv'
  have hm := Fields.mem_of_get? hn
  exact Load.yielded_failing (hstateless resolver (.own hm))
    (fun used hused => hstateless used (.deeper hm hused)) hrows halike hv hv'

/-- A column that nothing is loaded into is the same where sources fail. -/
theorem column_unloaded {row row' : Row} (h : l.Pairs context failures t row row') {column : String}
    (hcolumn : ∀ key, l.occurrences key ≠ [] → loadedColumn key ≠ column) :
    Fields.get? row column = Fields.get? row' column := by
  obtain ⟨i, hi, hi'⟩ := h
  have hbatch : ∃ own, l.batch[i]? = some own := by
    obtain ⟨hlt, -⟩ := List.getElem?_eq_some_iff.mp hi
    rw [length_rows] at hlt
    exact ⟨_, List.getElem?_eq_getElem hlt⟩
  obtain ⟨own, hown⟩ := hbatch
  obtain ⟨stored, hstored, hkept⟩ := l.kept context hown
  obtain ⟨stored', hstored', hkept'⟩ := (l.failing failures t).kept context hown
  obtain rfl := Option.some.inj (hi.symm.trans hstored)
  obtain rfl := Option.some.inj (hi'.symm.trans hstored')
  rw [loads_failing] at hkept'
  have hne : ∀ key ∈ l.loads.map Load.key, loadedColumn key ≠ column := by
    rintro key hkey
    obtain ⟨load, hload, rfl⟩ := List.mem_map.mp hkey
    obtain ⟨first, rest, n, ho, -, -⟩ := Load.exists_of_mem_ofFields hload
    exact hcolumn load.key (by rw [occurrences, ho]; exact List.cons_ne_nil _ _)
  rw [hkept column hne, hkept' column hne]

end Layer

namespace FieldResolver

variable {C : Type} {r : FieldResolver C} {context : C} {f : SelectedField}
  {failures : Failures C}

theorem failing_none : r.failing (fun _ => none) = r := by
  rw [failing, Resolver.failing_of_none rfl, NestedField.allFailing_none]

/-- The sources of the field and those below it answer every statement regardless of those before. -/
def Stateless (r : FieldResolver C) : Prop := ∀ used, r.Uses used → used.source.Stateless

/-- The rows of a field, with what is loaded below them. -/
def layer (r : FieldResolver C) (f : SelectedField) (resolution : Resolution) (t : Trace) :
    Layer C :=
  ⟨r.nested, rowFields r.resolver.paginated [f], r.resolver.table, resolution.nodes, t⟩

theorem layer_failing (resolution : Resolution) (t u : Trace) :
    (r.failing failures).layer f resolution u = (r.layer f resolution t).failing failures u := by
  simp only [layer, failing, Layer.failing, Resolver.paginated_failing, Resolver.table_failing]

theorem Stateless.layer (hstateless : r.Stateless) (resolution : Resolution) (t : Trace) :
    (r.layer f resolution t).Stateless :=
  fun used hused => hstateless used (.inr hused)

/-- **A field with a resolver, beside what it is where sources fail**: it fails with the fault of its
source, if that is one of them, and otherwise has a value of the same shape. -/
theorem load_failing (hstateless : r.Stateless) {value : Resolution} {t : Trace}
    (h : ((r.load context f).after t).1 = .ok value) (t' : Trace) :
    (∃ failure, failures r.resolver = some failure ∧ ∃ history s,
      (((r.failing failures).load context f).after t').1 = .error (.source (failure history s))) ∨
    failures r.resolver = none ∧ ∃ value',
      (((r.failing failures).load context f).after t').1 = .ok value' ∧
        ServedBeside context failures false r.resolver.paginated r.nested
          (rowFields r.resolver.paginated [f]) value.toJson value'.toJson := by
  obtain ⟨resolution, u, hresolve, h⟩ := Run.after_bind_eq_ok h
  cases hf : failures r.resolver with
  | some failure =>
      obtain ⟨q, hq⟩ := Resolver.exists_query_of_resolve (congrArg Prod.fst hresolve)
      obtain ⟨history, hfailed⟩ := Resolver.resolve_failed hf hq t'
      exact .inl ⟨failure, rfl, history, q.statement, Run.after_bind_of_error hfailed⟩
  | none =>
      obtain ⟨stored, u₂, hstored, h⟩ := Run.after_bind_eq_ok h
      obtain rfl := Except.ok.inj h
      have hsame : (((r.failing failures).resolver.resolve f.arguments context).after t').1 =
          ((r.resolver.resolve f.arguments context).after t).1 :=
        Resolver.resolve_failing hf (hstateless r.resolver (.inl rfl)) t t'
      rcases hresolve' : ((r.failing failures).resolver.resolve f.arguments context).after t' with
        ⟨e | resolution', u'⟩ <;> rw [hresolve, hresolve'] at hsame <;> cases hsame
      obtain ⟨w, hrows⟩ := Layer.rows_after context (r.layer f resolution u)
      obtain rfl := Except.ok.inj (congrArg Prod.fst (hstored.symm.trans hrows))
      obtain ⟨w', hrows'⟩ := Layer.rows_after context ((r.failing failures).layer f resolution u')
      have hshape := Resolver.shapes_resolve (congrArg Prod.fst hresolve)
      have hpairs := Layer.forall₂_rows context failures (r.layer f resolution u) u'
      rw [← layer_failing] at hpairs
      refine .inr ⟨rfl, resolution.setNodes (((r.failing failures).layer f resolution u').rows
        context), ?_, ⟨r.layer f resolution u, u', resolution, _, _, rfl, rfl,
          hstateless.layer resolution u, hshape.paginated, hpairs, rfl, rfl⟩⟩
      have hstored' : (Load.storeAll context (r.failing failures).resolver.table resolution.nodes
          ((r.failing failures).loads f)).after u' = _ := hrows'
      simp only [load, Run.after_bind, hresolve', hstored']
      rfl

end FieldResolver

end RelaySql
