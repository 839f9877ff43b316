import RelaySql.Proofs.Source.Children

/-!
# Resolvers — a batch is resolved key by key

A batch enters a composed query only by its keys (`Resolver.compose_withKeys`), and the source
answers for each key alone.  So over a source that holds rows, a key of a batch has the value that
it would have in any other batch (`Resolver.resolveNested_keyed`).
-/

namespace RelaySql

/-- The row has a value of this kind in the column. -/
def Row.Keyed (column : String) (kind : KeyKind) (row : Row) : Prop :=
  ∃ v, Fields.get? row column = some v ∧ kind.Holds v

/-- The text is that of a value whose literal the kind tells. -/
def KeyKind.Names (kind : KeyKind) (key : String) : Prop :=
  ∃ v, keyText v = .ok key ∧ Sql.literal v = .ok (kind.literal key)

namespace ParentBatch

variable {p : ParentBatch} {kind : KeyKind}

theorem entry_of_keyed {row : Row} (h : row.Keyed p.keyColumn kind) :
    ∃ key, kind.Names key ∧ p.entry row = .ok (key, kind.literal key) := by
  obtain ⟨v, hv, hkind⟩ := h
  obtain ⟨key, hk, hl⟩ := KeyKind.literal_of_holds hkind
  refine ⟨key, ⟨v, hk, hl⟩, ?_⟩
  simp only [entry, keyValue, hv, bind, Except.bind, hk, hl]
  rfl

/-- The keys of rows of one kind, and the literals that their texts tell. -/
theorem distinctKeys_of_keyed (h : ∀ row ∈ p.rows, row.Keyed p.keyColumn kind) :
    ∃ keys texts, p.distinctKeys = .ok keys ∧ p.texts = .ok texts ∧
      (∀ key ∈ texts, kind.Names key) ∧ keys.values = texts.eraseDups.map kind.literal := by
  -- for any rows, since the induction changes them under a fixed key column
  have hentries : ∀ rows : List Row, (∀ row ∈ rows, row.Keyed p.keyColumn kind) →
      ∃ entries, rows.mapM p.entry = .ok entries ∧
        ∀ e ∈ entries, kind.Names e.1 ∧ e.2 = kind.literal e.1 := by
    intro rows hrows
    simp only [Except.mapM_eq_ok]
    induction rows with
    | nil => exact ⟨[], .nil, by simp⟩
    | cons row rest ih =>
        obtain ⟨hrow, hrest⟩ := List.forall_mem_cons.mp hrows
        obtain ⟨key, hn, he⟩ := entry_of_keyed hrow
        obtain ⟨entries, hentries, hl⟩ := ih hrest
        exact ⟨_ :: entries, .cons he hentries, List.forall_mem_cons.mpr ⟨⟨hn, rfl⟩, hl⟩⟩
  obtain ⟨entries, hentries, hl⟩ := hentries p.rows h
  have hkeys : p.distinctKeys = .ok (Fields.firsts entries) := by
    rw [distinctKeys_eq, hentries]
    rfl
  have htexts : p.texts = .ok (entries.map Prod.fst) := by
    rw [texts_eq, hentries]
    rfl
  refine ⟨_, _, hkeys, htexts, ?_, ?_⟩
  · intro key hm
    obtain ⟨e, he, rfl⟩ := List.mem_map.mp hm
    exact (hl e he).1
  · rw [← Fields.keys_firsts, Fields.keys, Fields.values, List.map_map]
    exact List.map_congr_left fun e he => (hl e (Fields.mem_of_mem_firsts he)).2

/-- The key of a row is among the texts of the batch. -/
theorem key_of_mem {texts : List String} (ht : p.texts = .ok texts) {row : Row}
    (hrow : row ∈ p.rows) (hkeyed : row.Keyed p.keyColumn kind) :
    ∃ v key, p.keyValue row = .ok v ∧ keyText v = .ok key ∧
      Sql.literal v = .ok (kind.literal key) ∧ key ∈ texts := by
  obtain ⟨v, hv, hkind⟩ := hkeyed
  obtain ⟨key, hk, hl⟩ := KeyKind.literal_of_holds hkind
  have hown : p.keyValue row = .ok v := by simp only [keyValue, hv]
  obtain ⟨text, hm, htext⟩ := Except.mem_of_mapM_eq_ok ht hrow
  obtain rfl : key = text := by
    rw [keyOf, hown] at htext
    exact Except.ok.inj (hk.symm.trans htext)
  exact ⟨v, key, hown, hk, hl, hm⟩

end ParentBatch

/-- The query with other keys to ask for. -/
def ComposedQuery.withKeys (keys : List String) (q : ComposedQuery) : ComposedQuery :=
  { q with
    statement := { q.statement with
      join := q.statement.join.map fun join => { join with parentKeys := keys } } }

namespace Resolver

variable {C : Type} {r : Resolver C} {args : Arguments} {context : C}

theorem composeJoin_withKeys {p : ParentBatch} {keys : Fields String}
    (hk : p.distinctKeys = .ok keys) :
    r.composeJoin args context p =
      (r.composeJoin args context { p with rows := [] }).map fun join =>
        { join with parentKeys := keys.values } := by
  simp only [composeJoin]
  rcases r.join with _ | condition
  · rfl
  · simp only [ParentBatch.aliasFor, hk]
    rcases condition (if p.table = r.table then p.table ++ "_parent" else p.table) r.table args
      context with e | text
    · rfl
    · simp only [bind, Except.bind]
      split <;> rfl

theorem query_withKeys (s : Statement) (keys : List String) :
    r.query args { s with join := s.join.map fun join => { join with parentKeys := keys } } =
      (r.query args s).map (ComposedQuery.withKeys keys) := by
  simp only [query]
  split
  · rcases PageRequest.ofArguments args with e | request
    · rfl
    · simp only [bind, Except.bind]
      rcases request.bounds with e | bounds <;> rfl
  · rfl

/-- **A batch enters a composed query only by its keys.** -/
theorem compose_withKeys {p : ParentBatch} {keys : Fields String} (hk : p.distinctKeys = .ok keys) :
    r.compose args context (some p) =
      (r.compose args context (some { p with rows := [] })).map
        (ComposedQuery.withKeys keys.values) := by
  simp only [compose_eq, joinFor, composeJoin_withKeys hk]
  rcases r.composeJoin args context { p with rows := [] } with e | join
  · rfl
  · rcases r.composeFilter args context with e | filter
    · rfl
    · exact query_withKeys (r.base (some join) filter) keys.values

/-- A composed query under a batch has a join. -/
theorem join_of_compose {p : ParentBatch} {q : ComposedQuery}
    (hq : r.compose args context (some p) = .ok q) :
    q.statement.table = r.table ∧ ∃ join, q.statement.join = some join := by
  obtain ⟨join, filter, hj, -, ⟨-, rfl⟩ | ⟨-, request, b, -, -, rfl⟩⟩ := compose_eq_ok hq
  · obtain ⟨join, -, rfl⟩ := Except.map_eq_ok.mp hj
    exact ⟨rfl, join, rfl⟩
  · obtain ⟨join, -, rfl⟩ := Except.map_eq_ok.mp hj
    exact ⟨rfl, join, rfl⟩

/-- The join of a composed query asks for the literals of the batch's keys. -/
theorem parentKeys_of_compose {p : ParentBatch} {q : ComposedQuery} {keys : Fields String}
    (hq : r.compose args context (some p) = .ok q) (hk : p.distinctKeys = .ok keys) :
    ∃ join, q.statement.join = some join ∧ join.parentKeys = keys.values := by
  obtain ⟨-, join, hjoin⟩ := join_of_compose hq
  rw [compose_withKeys hk] at hq
  obtain ⟨q, -, rfl⟩ := Except.map_eq_ok.mp hq
  obtain ⟨_, -, rfl⟩ := Option.map_eq_some_iff.mp hjoin
  exact ⟨_, hjoin, rfl⟩

/-- The nested resolution of a batch, whose source returns the rows of one key after another. -/
theorem resolveNested_of_flatMap {p : ParentBatch} {q : ComposedQuery} {texts : List String}
    {part : String → List Row} {value : String → Resolution}
    (hq : r.compose args context (some p) = .ok q) (ht : p.texts = .ok texts) (hrows : p.rows ≠ [])
    {t : Trace}
    (hanswer : r.source.answer (t.statements r.source.name) q.statement =
      .ok (texts.eraseDups.flatMap part))
    (htext : ∀ key ∈ texts, ∀ row ∈ part key, row.parentText? = some key)
    (hvalue : ∀ key ∈ texts, q.finishGroup (part key) = .ok (value key)) :
    ((r.resolveNested args context p).after t).1 =
      .ok (Fields.tabulate texts.eraseDups value) := by
  have hplaced : ∀ row ∈ texts.eraseDups.flatMap part,
      ∃ key ∈ texts, row.parentText? = some key := by
    intro row hrow
    obtain ⟨key, hm, hrow⟩ := List.mem_flatMap.mp hrow
    have hm := List.mem_eraseDups.mp hm
    exact ⟨key, hm, htext key hm row hrow⟩
  rw [resolveNested_of_placed hq ht hrows hanswer hplaced]
  refine finishGroups_eq_ok.mpr ⟨_, rfl, fun key hm => ?_⟩
  obtain ⟨-, _, -, ht', -, hnodup⟩ := keys_of_compose hq
  obtain rfl := Except.ok.inj (ht'.symm.trans ht)
  rw [childrenWith_flatMap hnodup (fun key hm => htext key (List.mem_eraseDups.mp hm)) hm]
  exact hvalue key (List.mem_eraseDups.mp hm)

variable {table column : String} {kind : KeyKind}

/-- The query of a batch whose rows are keyed by values of one kind asks for the literals that their
key texts tell. -/
theorem compose_keyed (r : Resolver C) (args : Arguments) (context : C) (table : String)
    {rows : List Row} (hrows : ∀ row ∈ rows, row.Keyed column kind) :
    ∃ keys texts, (ParentBatch.mk table column rows).distinctKeys = .ok keys ∧
      (ParentBatch.mk table column rows).texts = .ok texts ∧ (∀ key ∈ texts, kind.Names key) ∧
      keys.values = texts.eraseDups.map kind.literal ∧
      r.compose args context (some ⟨table, column, rows⟩) =
        (r.compose args context (some ⟨table, column, []⟩)).map
          (ComposedQuery.withKeys keys.values) := by
  obtain ⟨keys, texts, hkeys, ht, hnames, hl⟩ :=
    ParentBatch.distinctKeys_of_keyed (p := ⟨table, column, rows⟩) hrows
  exact ⟨keys, texts, hkeys, ht, hnames, hl, compose_withKeys hkeys⟩

/-- The nested resolution of a batch, whose source answers for the literal of each key alone. -/
theorem resolveNested_of_parts {rows : List Row} {keys : Fields String} {texts : List String}
    {totals : Bool} {stored : List Row} {q : ComposedQuery} {value : String → Resolution}
    (hq : r.compose args context (some ⟨table, column, rows⟩) = .ok (q.withKeys keys.values))
    (hdistinct : (ParentBatch.mk table column rows).distinctKeys = .ok keys)
    (hsource : r.source.Stores r.table totals stored)
    (hstored : ∀ row ∈ stored, Fields.get? row totalColumn = none)
    (ht : (ParentBatch.mk table column rows).texts = .ok texts) (hrows : rows ≠ [])
    (hnames : ∀ key ∈ texts, kind.Names key)
    (hkeys : keys.values = texts.eraseDups.map kind.literal)
    (hvalue : ∀ l, q.finishGroup (Source.part totals stored q.statement l) = .ok (value l))
    (t : Trace) :
    ((r.resolveNested args context ⟨table, column, rows⟩).after t).1 =
      .ok (Fields.tabulate texts.eraseDups fun key => value (kind.literal key)) := by
  obtain ⟨htable, -⟩ := join_of_compose hq
  obtain ⟨join, hjoin, hparent⟩ := parentKeys_of_compose hq hdistinct
  have hanswer : r.source.answer (t.statements r.source.name) (q.withKeys keys.values).statement =
      .ok (texts.eraseDups.flatMap fun key =>
        Source.part totals stored q.statement (kind.literal key)) := by
    rw [hsource _ _ htable (by rw [hjoin]; rfl), Source.select_join hjoin, hparent, hkeys,
      List.flatMap_map]
    rfl
  refine resolveNested_of_flatMap hq ht hrows hanswer (fun key hm row hrow => ?_) fun key _ =>
    hvalue (kind.literal key)
  obtain ⟨v, hk, hl⟩ := hnames key hm
  exact Source.parentText_of_returnedFrom (Source.returnedFrom_part hstored totals q.statement _)
    hk hl hrow

variable (args) (context) (table column kind)

/-- **A batch is resolved key by key.**  Over a source that holds rows, there is one value for each
key, and the nested resolution of any batch gives its keys these values. -/
theorem resolveNested_keyed {totals : Bool} {stored : List Row}
    (hsource : r.source.Stores r.table totals stored)
    (hstored : ∀ row ∈ stored, Fields.get? row totalColumn = none) :
    ∃ outcome : Except Fault (String → Resolution),
      (∀ value, outcome = .ok value →
        ∀ key, ∀ node ∈ (value key).nodes, ∃ row ∈ stored, node = row.visible) ∧
      ∀ rows : List Row, rows ≠ [] → (∀ row ∈ rows, row.Keyed column kind) → ∀ t,
        ∃ texts, (ParentBatch.mk table column rows).texts = .ok texts ∧
          ((r.resolveNested args context ⟨table, column, rows⟩).after t).1 =
            outcome.map (Fields.tabulate texts.eraseDups) := by
  -- the outcome is decided by the query without keys, which all batches share
  rcases hq : r.compose args context (some ⟨table, column, []⟩) with e | q
  · refine ⟨.error e, ?_, fun rows hne hrows t => ?_⟩
    · intro _ h
      cases h
    · obtain ⟨keys, texts, -, ht, -, -, hcompose⟩ :=
        compose_keyed r args context table hrows
      rw [hq] at hcompose
      refine ⟨texts, ht, ?_⟩
      rw [resolveNested_of_compose_eq_error hcompose]
      rfl
  · choose value hvalue using fun l => ComposedQuery.finishGroup_returnedFrom hq
      (Source.returnedFrom_part hstored totals q.statement l)
    refine ⟨.ok fun key => value (kind.literal key), ?_, fun rows hne hrows t => ?_⟩
    · rintro _ h key node hn
      cases h
      obtain ⟨row, hrow, rfl⟩ :=
        ComposedQuery.nodes_finishGroup (hvalue (kind.literal key)) node hn
      exact Source.visible_of_mem_part hstored hrow
    · obtain ⟨keys, texts, hkeys, ht, hnames, hl, hcompose⟩ :=
        compose_keyed r args context table hrows
      rw [hq] at hcompose
      refine ⟨texts, ht, ?_⟩
      exact resolveNested_of_parts hcompose hkeys hsource hstored ht hne hnames hl hvalue t

/-- A source that always fails gives every batch the same fault. -/
theorem resolveNested_fails {fault : SourceFault} (hsource : r.source.Fails fault) :
    ∃ e : Fault, ∀ rows : List Row, rows ≠ [] → (∀ row ∈ rows, row.Keyed column kind) → ∀ t,
      ((r.resolveNested args context ⟨table, column, rows⟩).after t).1 = .error e := by
  rcases hq : r.compose args context (some ⟨table, column, []⟩) with e | q
  · refine ⟨e, fun rows hne hrows t => ?_⟩
    obtain ⟨keys, -, -, -, -, -, hcompose⟩ :=
      compose_keyed r args context table hrows
    rw [hq] at hcompose
    rw [resolveNested_of_compose_eq_error hcompose]
  · refine ⟨.source fault, fun rows hne hrows t => ?_⟩
    obtain ⟨keys, -, hkeys, -, -, -, hcompose⟩ :=
      compose_keyed r args context table hrows
    rw [hq] at hcompose
    rw [resolveNested_after hcompose hkeys (ParentBatch.distinctKeys_ne_nil hkeys hne), hsource]

end Resolver

end RelaySql
