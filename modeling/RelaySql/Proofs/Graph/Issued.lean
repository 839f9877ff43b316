import Mathlib.Algebra.BigOperators.Group.List.Basic
import RelaySql.Proofs.Graph.Layers
import RelaySql.Proofs.Resolver.Keys

/-!
# Loading — the statements of a field

A nested field is selected at a response path: the response keys of the nested fields from the field
with a resolver down to it.  All its occurrences at the path are loaded at once, for all rows of the
layer above, so a path costs at most one statement.

* `NestedField.places`: the response paths, depth first and in the order of first occurrences, each
  with its occurrences in the query.
* `Layer.executions_turn`: a load in its turn issues its own statement, and then those below it.
* `FieldResolver.executions_load`: a field issues its own statement, and then at most one for each
  response path, in order.
-/

namespace RelaySql

/-! ### Response paths -/

namespace NestedField

variable {C : Type}

theorem sizeOf_below_lt {nested below : List (String × NestedField C)} {name column : String}
    {single : Bool} {resolver : Resolver C}
    (h : Fields.get? nested name = some (mk column single resolver below)) :
    sizeOf below < sizeOf nested := by
  have hlt := List.sizeOf_lt_of_mem (Fields.mem_of_get? h)
  simp only [Prod.mk.sizeOf_spec, mk.sizeOf_spec] at hlt
  omega

/-- The response paths below rows, each before those below it, with their occurrences in the
query. -/
def places (nested : List (String × NestedField C)) (positions : List SelectedField) :
    List (List String × List SelectedField) :=
  (Load.nestedKeys nested positions).flatMap fun key =>
    match Load.occurring nested positions key with
    | [] => []
    | first :: rest =>
      match _h : Fields.get? nested first.name with
      | none => []
      | some (mk _ _ resolver below) =>
        ([key], first :: rest) ::
          (places below (rowFields resolver.paginated (first :: rest))).map fun p =>
            (key :: p.1, p.2)
termination_by nested
decreasing_by exact sizeOf_below_lt _h

/-- The response paths that begin with a key, with their occurrences in the query. -/
def placesAt (nested : List (String × NestedField C)) (positions : List SelectedField)
    (key : String) : List (List String × List SelectedField) :=
  match Load.occurring nested positions key with
  | [] => []
  | first :: rest =>
    match Fields.get? nested first.name with
    | none => []
    | some (mk _ _ resolver below) =>
      ([key], first :: rest) ::
        (places below (rowFields resolver.paginated (first :: rest))).map fun p => (key :: p.1, p.2)

theorem places_eq (nested : List (String × NestedField C)) (positions : List SelectedField) :
    places nested positions =
      (Load.nestedKeys nested positions).flatMap (placesAt nested positions) := by
  rw [places]
  refine List.flatMap_congr fun key _ => ?_
  rw [placesAt]
  split
  · rfl
  · split <;> split <;> simp_all

variable {nested below : List (String × NestedField C)} {positions : List SelectedField}

/-- **Induction along response paths**: what holds below every nested field that is selected on rows
holds of the rows. -/
theorem below_induction {motive : List (String × NestedField C) → List SelectedField → Prop}
    (step : ∀ nested positions,
      (∀ key first rest column single resolver below,
        Load.occurring nested positions key = first :: rest →
        Fields.get? nested first.name = some (mk column single resolver below) →
        motive below (rowFields resolver.paginated (first :: rest))) →
      motive nested positions) :
    ∀ nested positions, motive nested positions := fun nested positions =>
  step nested positions fun _ _ _ _ _ _ below _ _ => below_induction step below _
termination_by nested => nested
decreasing_by exact sizeOf_below_lt ‹_›

theorem placesAt_of_first {key column : String} {first : SelectedField}
    {rest : List SelectedField} {single : Bool} {resolver : Resolver C}
    (ho : Load.occurring nested positions key = first :: rest)
    (hn : Fields.get? nested first.name = some (mk column single resolver below)) :
    placesAt nested positions key = ([key], first :: rest) ::
      (places below (rowFields resolver.paginated (first :: rest))).map fun p => (key :: p.1, p.2) := by
  simp only [placesAt, ho, hn]

/-- Where a response path begins, it goes on below the nested field of its first key. -/
theorem of_mem_placesAt {key : String} {p : List String × List SelectedField}
    (h : p ∈ placesAt nested positions key) :
    ∃ first rest column single resolver below,
      Load.occurring nested positions key = first :: rest ∧
      Fields.get? nested first.name = some (mk column single resolver below) ∧
      (p = ([key], first :: rest) ∨
        ∃ q ∈ places below (rowFields resolver.paginated (first :: rest)), p = (key :: q.1, q.2)) := by
  simp only [placesAt] at h
  split at h
  · cases h
  · next first rest ho =>
      split at h
      · cases h
      · next column single resolver below hn =>
          refine ⟨first, rest, column, single, resolver, below, ho, hn, ?_⟩
          rcases List.mem_cons.mp h with h | h
          · exact .inl h
          · obtain ⟨q, hq, rfl⟩ := List.mem_map.mp h
            exact .inr ⟨q, hq, rfl⟩

theorem head?_of_mem_placesAt {key : String} {p : List String × List SelectedField}
    (h : p ∈ placesAt nested positions key) : p.1.head? = some key := by
  obtain ⟨-, -, -, -, -, -, -, -, rfl | ⟨q, -, rfl⟩⟩ := of_mem_placesAt h <;> rfl

theorem ne_nil_of_mem_places {p : List String × List SelectedField}
    (h : p ∈ places nested positions) : p.1 ≠ [] := by
  rw [places_eq] at h
  obtain ⟨key, -, hp⟩ := List.mem_flatMap.mp h
  have hhead := head?_of_mem_placesAt hp
  rintro hnil
  rw [hnil] at hhead
  cases hhead

end NestedField

/-! ### Loads in their turn -/

/-- The load of a response key, for the rows as they are in its turn. -/
structure Turn (C : Type) where
  resolver : Resolver C
  arguments : Arguments
  parents : ParentBatch
  /-- What happened before. -/
  trace : Trace
  /-- The fields registered for the rows of the load. -/
  nested : List (String × NestedField C)
  /-- The fields that select on the rows of the load. -/
  positions : List SelectedField

namespace Turn

variable {C : Type} (context : C) (turn : Turn C)

/-- The query of a load. -/
def query : Except Fault ComposedQuery :=
  turn.resolver.compose turn.arguments context (some turn.parents)

/-- The statement of a load with the name of its source, if the query can be composed. -/
def statement? : Option (String × Statement) :=
  (turn.query context).toOption.map fun q => (turn.resolver.source.name, q.statement)

/-- The rows of a load, if it succeeds. -/
def layer? : Option (Layer C) :=
  match (turn.resolver.resolveNested turn.arguments context turn.parents).after turn.trace with
  | (.ok groups, u) => some ⟨turn.nested, turn.positions, turn.resolver.table,
      groups.values.flatMap Resolution.nodes, u⟩
  | (.error _, _) => none

end Turn

namespace Layer

variable {C : Type} (context : C) (l : Layer C)

/-- The load of a response key in its turn, if a nested field is selected under the key. -/
def turn? (key : String) : Option (Turn C) :=
  match l.occurrences key with
  | [] => none
  | first :: rest =>
    match Fields.get? l.nested first.name, l.reached context key with
    | some (.mk column _ resolver nested), (.ok rows, u) =>
      some ⟨resolver, first.arguments, ⟨l.table, column, rows⟩, u, nested,
        rowFields resolver.paginated (first :: rest)⟩
    | _, _ => none

/-- The statement that is issued for a response key.  Without rows nothing is loaded. -/
def issued? (key : String) : Option (String × Statement) :=
  if l.batch = [] then none else (l.turn? context key).bind (Turn.statement? context)

/-- The rows that are loaded under a response key. -/
def under? (key : String) : Option (Layer C) :=
  if l.batch = [] then none else (l.turn? context key).bind (Turn.layer? context)

/-- The rows that are loaded at a response path below the layer. -/
def at? (path : List String) : Option (Layer C) :=
  path.foldlM (fun l key => l.under? context key) l

/-- The statement that is issued for a response path below the layer. -/
def statement? (context : C) : Layer C → List String → Option (String × Statement)
  | _, [] => none
  | l, [key] => l.issued? context key
  | l, key :: path => (l.under? context key).bind (statement? context · path)

variable {context}

theorem statement?_cons {path : List String} (h : path ≠ []) (l : Layer C) (key : String) :
    l.statement? context (key :: path) = (l.under? context key).bind (statement? context · path) := by
  cases path with
  | nil => exact absurd rfl h
  | cons next path => rfl

/-- Without rows no statement is issued. -/
theorem statement?_of_no_rows {l : Layer C} (h : l.batch = []) (path : List String) :
    l.statement? context path = none := by
  match path with
  | [] => rfl
  | [key] => exact if_pos h
  | key :: next :: path =>
      have hunder : l.under? context key = none := if_pos h
      rw [statement?_cons (List.cons_ne_nil _ _), hunder, Option.bind_none]

/-- The load of a nested field in its turn. -/
theorem turn?_of_first {l : Layer C} {key column : String} {first : SelectedField}
    {rest : List SelectedField} {single : Bool} {resolver : Resolver C}
    {nested : List (String × NestedField C)} {rows : List Row} {u : Trace}
    (ho : l.occurrences key = first :: rest)
    (hn : Fields.get? l.nested first.name = some (.mk column single resolver nested))
    (hreached : l.reached context key = (.ok rows, u)) :
    l.turn? context key = some ⟨resolver, first.arguments, ⟨l.table, column, rows⟩, u, nested,
      rowFields resolver.paginated (first :: rest)⟩ := by
  simp only [turn?, ho, hn, hreached]

/-- The rows and the trace that a load finds in its turn are those its predecessors leave. -/
theorem reached_of_split {l : Layer C} {load : Load C} {before after : List (Load C)}
    (hloads : l.loads = before ++ load :: after) :
    l.reached context load.key = (Load.storeAll context l.table l.batch before).after l.trace := by
  have hnodup : (l.loads.map Load.key).Nodup := by
    rw [loads, Load.keys_ofFields]
    exact Fields.nodup_eraseDups _
  have hbefore : ∀ other ∈ before, other.key ≠ load.key := by
    intro other ho hkey
    rw [hloads, List.map_append, List.map_cons] at hnodup
    refine List.disjoint_of_nodup_append hnodup (List.mem_map_of_mem ho) ?_
    rw [hkey]
    exact List.mem_cons_self
  rw [reached, hloads, List.takeWhile_append_of_pos (by simpa using hbefore),
    List.takeWhile_cons_of_neg (by simp), List.append_nil]

end Layer

namespace Load

variable {C : Type} {context : C} {table key column : String} {single : Bool}
  {resolver : Resolver C} {arguments : Arguments} {below : List (Load C)} {rows : List Row}
  {t : Trace}

/-- What a load leaves in the trace: what its resolution leaves, and then the loads of its rows. -/
theorem values_trace :
    (((mk key column single resolver arguments below).values context table rows).after t).2 =
      match (resolver.resolveNested arguments context ⟨table, column, rows⟩).after t with
      | (.ok groups, u) => ((storeAll context resolver.table
          (groups.values.flatMap Resolution.nodes) below).after u).2
      | (.error _, u) => u := by
  simp only [values, Run.after_bind]
  rcases (resolver.resolveNested arguments context ⟨table, column, rows⟩).after t with
    ⟨_ | groups, u⟩
  · rfl
  · simp only []
    rcases (storeAll context resolver.table (groups.values.flatMap Resolution.nodes) below).after u
      with ⟨_ | children, u'⟩
    · rfl
    · simp only [Run.after_lift]

end Load

namespace Layer

variable {C : Type} {context : C} {l : Layer C}

/-- A load in its turn is that of a nested field that is selected on the rows. -/
theorem turn?_eq_some {key : String} {turn : Turn C} (h : l.turn? context key = some turn) :
    ∃ first rest column single rows u, l.occurrences key = first :: rest ∧
      Fields.get? l.nested first.name = some (.mk column single turn.resolver turn.nested) ∧
      l.reached context key = (.ok rows, u) ∧
      turn = ⟨turn.resolver, first.arguments, ⟨l.table, column, rows⟩, u, turn.nested,
        rowFields turn.resolver.paginated (first :: rest)⟩ := by
  simp only [turn?] at h
  split at h
  · cases h
  · next first rest ho =>
      split at h
      · next column single resolver nested rows u hn hreached =>
          obtain rfl := Option.some.inj h
          exact ⟨first, rest, column, single, rows, u, ho, hn, hreached, rfl⟩
      · cases h

theorem nested_of_layer? {turn : Turn C} {below : Layer C} (h : turn.layer? context = some below) :
    below.nested = turn.nested ∧ below.positions = turn.positions := by
  simp only [Turn.layer?] at h
  split at h
  · obtain rfl := Option.some.inj h
    exact ⟨rfl, rfl⟩
  · cases h

/-- The rows that are loaded under a key are those of a nested field registered above. -/
theorem sizeOf_under {key : String} {below : Layer C} (h : l.under? context key = some below) :
    sizeOf below.nested < sizeOf l.nested := by
  simp only [under?] at h
  split at h
  · cases h
  · obtain ⟨turn, hturn, hlayer⟩ := Option.bind_eq_some_iff.mp h
    obtain ⟨first, rest, column, single, rows, u, -, hn, -⟩ := turn?_eq_some hturn
    rw [(nested_of_layer? hlayer).1]
    exact NestedField.sizeOf_below_lt hn

/-- The statements issued for the response paths that begin with a key: that of the key itself, and
those of the paths below the rows that are loaded for it. -/
theorem filterMap_placesAt {key : String} {turn : Turn C} (hturn : l.turn? context key = some turn) :
    ((NestedField.placesAt l.nested l.positions key).filterMap fun p => l.statement? context p.1) =
      (l.issued? context key).toList ++
        match l.under? context key with
        | none => []
        | some below => (NestedField.places below.nested below.positions).filterMap fun p =>
            below.statement? context p.1 := by
  obtain ⟨first, rest, column, single, rows, u, ho, hn, -, hdata⟩ := turn?_eq_some hturn
  have hpositions : turn.positions = rowFields turn.resolver.paginated (first :: rest) :=
    congrArg Turn.positions hdata
  -- below the key, a path is issued on the rows that are loaded for the key
  have hbelow : (((NestedField.places turn.nested turn.positions).map fun p =>
      (key :: p.1, p.2)).filterMap fun p => l.statement? context p.1) =
      match l.under? context key with
      | none => []
      | some below => (NestedField.places below.nested below.positions).filterMap fun p =>
          below.statement? context p.1 := by
    have hcons : ∀ p ∈ NestedField.places turn.nested turn.positions,
        l.statement? context (key :: p.1) =
          (l.under? context key).bind (statement? context · p.1) := fun p hp =>
      statement?_cons (NestedField.ne_nil_of_mem_places hp) l key
    rw [List.filterMap_map]
    refine (List.filterMap_congr hcons).trans ?_
    cases hunder : l.under? context key with
    | none => exact List.filterMap_eq_nil_iff.mpr fun _ _ => rfl
    | some below =>
        simp only [under?, hturn, Option.bind_some] at hunder
        split at hunder
        · cases hunder
        · obtain ⟨hnested, hfields⟩ := nested_of_layer? hunder
          simp only [hnested, hfields]
          rfl
  rw [NestedField.placesAt_of_first ho hn, List.filterMap_cons, ← hbelow, ← hpositions]
  have hkey : l.statement? context [key] = l.issued? context key := rfl
  rw [hkey]
  cases l.issued? context key <;> rfl

/-- What the loads of the layer issue: the statements of its response paths, in order. -/
def IssuesInOrder (context : C) (l : Layer C) : Prop :=
  Trace.executions ((Load.storeAll context l.table l.batch l.loads).after l.trace).2 =
    l.trace.executions ++ (NestedField.places l.nested l.positions).filterMap fun p =>
      l.statement? context p.1

/-- **A load in its turn** issues its own statement, and then those below it. -/
theorem executions_turn {load : Load C} (hload : load ∈ l.loads) (hrows : l.batch ≠ [])
    {batch : List Row} (hbatch : batch ≠ []) {u : Trace}
    (hreached : l.reached context load.key = (.ok batch, u))
    (hbelow : ∀ below, l.under? context load.key = some below → below.IssuesInOrder context) :
    Trace.executions ((load.values context l.table batch).after u).2 =
      u.executions ++ (NestedField.placesAt l.nested l.positions load.key).filterMap fun p =>
        l.statement? context p.1 := by
  obtain ⟨first, rest, n, ho, hn, heq⟩ := Load.exists_of_mem_ofFields hload
  obtain ⟨column, single, resolver, nested⟩ := n
  generalize load.key = key at ho heq hreached hbelow ⊢
  subst heq
  have hturn := turn?_of_first ho hn hreached
  have hissued : l.issued? context key = _ :=
    (if_neg hrows).trans (congrArg (Option.bind · (Turn.statement? context)) hturn)
  have hunder : l.under? context key = _ :=
    (if_neg hrows).trans (congrArg (Option.bind · (Turn.layer? context)) hturn)
  rw [filterMap_placesAt hturn, NestedField.planner_cons, NestedField.loadWith, Load.values_trace]
  cases hq : resolver.compose first.arguments context (some ⟨l.table, column, batch⟩) with
  | error e =>
      have hnested := Resolver.resolveNested_of_compose_eq_error hq u
      have hno : l.issued? context key = none := by
        rw [hissued, Option.bind_some, Turn.statement?, Turn.query, hq]
        rfl
      have hnone : l.under? context key = none := by
        rw [hunder, Option.bind_some, Turn.layer?, hnested]
      rw [hnested, hno, hnone]
      exact (List.append_nil _).symm
  | ok q =>
      obtain ⟨keys, hkeys⟩ := ParentBatch.distinctKeys_of_compose hq
      have hne := ParentBatch.distinctKeys_ne_nil hkeys hbatch
      have hexecutions := Resolver.executions_resolveNested hq hkeys hne u
      have hown : l.issued? context key = some (resolver.source.name, q.statement) := by
        rw [hissued, Option.bind_some, Turn.statement?, Turn.query, hq]
        rfl
      rw [hown]
      rcases hresult : (resolver.resolveNested first.arguments context
        ⟨l.table, column, batch⟩).after u with ⟨e | groups, u'⟩
      · have hnone : l.under? context key = none := by
          rw [hunder, Option.bind_some, Turn.layer?, hresult]
        rw [hresult] at hexecutions
        rw [hnone]
        exact hexecutions
      · have hsome : l.under? context key = some ⟨nested,
            rowFields resolver.paginated (first :: rest), resolver.table,
            groups.values.flatMap Resolution.nodes, u'⟩ := by
          rw [hunder, Option.bind_some, Turn.layer?, hresult]
        rw [hresult] at hexecutions
        rw [hsome]
        refine (hbelow _ hsome).trans ?_
        rw [hexecutions]
        exact List.append_assoc _ _ _

/-- The first loads of a layer issue the statements of the response paths that begin at their
keys. -/
theorem executions_before (hrows : l.batch ≠ [])
    (hbelow : ∀ key below, l.under? context key = some below → below.IssuesInOrder context)
    (before after : List (Load C)) (hloads : l.loads = before ++ after) :
    ∃ batch u, (Load.storeAll context l.table l.batch before).after l.trace = (.ok batch, u) ∧
      u.executions = l.trace.executions ++ before.flatMap fun load =>
        (NestedField.placesAt l.nested l.positions load.key).filterMap fun p =>
          l.statement? context p.1 := by
  induction before using List.reverseRecOn generalizing after with
  | nil => exact ⟨l.batch, l.trace, rfl, (List.append_nil _).symm⟩
  | append_singleton before load ih =>
      rw [List.append_assoc] at hloads
      obtain ⟨batch, u, hstored, hissued⟩ := ih _ hloads
      have hload : load ∈ l.loads := by
        rw [hloads]
        exact List.mem_append_right _ List.mem_cons_self
      have hbatch : batch ≠ [] := by
        obtain ⟨stored, u', hkept, hlength, -⟩ :=
          Load.storeAll_kept context l.table before l.batch l.trace
        rw [hstored] at hkept
        obtain rfl := Except.ok.inj (Prod.mk.inj hkept).1
        exact List.ne_nil_of_length_pos (hlength ▸ List.length_pos_of_ne_nil hrows)
      have hturn := executions_turn hload hrows hbatch
        ((reached_of_split hloads).trans hstored) (hbelow load.key)
      refine ⟨Load.store load.key batch (load.yielded context l.table batch u),
        ((load.values context l.table batch).after u).2, ?_, ?_⟩
      · rw [Load.storeAll_append, hstored]
        exact Load.storeAll_cons load [] hbatch u
      · rw [hturn, hissued, List.flatMap_append, List.flatMap_singleton, List.append_assoc]

/-- **The loads of a layer** issue the statements of its response paths, in order. -/
theorem issuesInOrder (context : C) (l : Layer C) : l.IssuesInOrder context := by
  by_cases hrows : l.batch = []
  · have hnone : ∀ p ∈ NestedField.places l.nested l.positions,
        l.statement? context p.1 = none := fun p _ => statement?_of_no_rows hrows p.1
    rw [IssuesInOrder, hrows, Load.storeAll_nil_rows, List.filterMap_eq_nil_iff.mpr hnone]
    exact (List.append_nil _).symm
  · obtain ⟨batch, u, hstored, hissued⟩ := executions_before hrows
      (fun key below hbelow => issuesInOrder context below) l.loads [] (List.append_nil _).symm
    rw [IssuesInOrder, hstored, hissued, NestedField.places_eq, List.filterMap_flatMap,
      ← Load.keys_ofFields, List.flatMap_map]
    rfl
termination_by l.nested
decreasing_by exact sizeOf_under hbelow

end Layer

/-! ### The statements of a field -/

namespace FieldResolver

variable {C : Type} (r : FieldResolver C) (context : C) (f : SelectedField) (t : Trace)

/-- The response paths below a field, depth first and in the order of first occurrences, with their
occurrences in the query. -/
def places : List (List String × List SelectedField) :=
  NestedField.places r.nested (rowFields r.resolver.paginated [f])

/-- The query of a field itself. -/
def query : Except Fault ComposedQuery := r.resolver.compose f.arguments context none

/-- The statement of a field itself, if its query can be composed. -/
def ownStatement? : Option (String × Statement) :=
  (r.query context f).toOption.map fun q => (r.resolver.source.name, q.statement)

/-- The rows that are loaded at a response path, from the field's own down. -/
def layerAt? (path : List String) : Option (Layer C) :=
  match (r.resolver.resolve f.arguments context).after t with
  | (.ok resolution, u) => Layer.at? context ⟨r.nested, rowFields r.resolver.paginated [f],
      r.resolver.table, resolution.nodes, u⟩ path
  | (.error _, _) => none

/-- The statement that is issued for a response path. -/
def statementAt? (path : List String) : Option (String × Statement) :=
  (r.layerAt? context f t []).bind fun l => l.statement? context path

variable {r} {context} {f} {t}

/-- What a field leaves in the trace: what its resolution leaves, and then the loads of its rows. -/
theorem load_trace (r : FieldResolver C) (context : C) (f : SelectedField) (t : Trace) :
    ((r.load context f).after t).2 =
      match (r.resolver.resolve f.arguments context).after t with
      | (.ok resolution, u) =>
        ((Load.storeAll context r.resolver.table resolution.nodes (r.loads f)).after u).2
      | (.error _, u) => u := by
  simp only [load, Run.after_bind]
  rcases (r.resolver.resolve f.arguments context).after t with ⟨_ | resolution, u⟩
  · rfl
  · simp only []
    rcases (Load.storeAll context r.resolver.table resolution.nodes (r.loads f)).after u with
      ⟨_ | rows, u'⟩ <;> rfl

/-- **A field issues its own statement**, and then those of its response paths, in order. -/
theorem executions_eq (r : FieldResolver C) (context : C) (f : SelectedField) (t : Trace) :
    Trace.executions ((r.load context f).after t).2 = t.executions ++
      ((r.ownStatement? context f).toList ++
        (r.places f).filterMap fun p => r.statementAt? context f t p.1) := by
  rw [load_trace]
  cases hq : r.query context f with
  | error e =>
      have hresolve : (r.resolver.resolve f.arguments context).after t = (.error e, t) :=
        Resolver.resolve_of_compose_eq_error hq t
      have hnone : ∀ p ∈ r.places f, r.statementAt? context f t p.1 = none := by
        intro p _
        simp only [statementAt?, layerAt?, hresolve, Option.bind_none]
      rw [hresolve, ownStatement?, hq, List.filterMap_eq_nil_iff.mpr hnone]
      exact (List.append_nil _).symm
  | ok q =>
      have hexecutions := Resolver.executions_resolve hq t
      have hown : r.ownStatement? context f = some (r.resolver.source.name, q.statement) := by
        rw [ownStatement?, hq]
        rfl
      rw [hown]
      rcases hresolve : (r.resolver.resolve f.arguments context).after t with ⟨e | resolution, u⟩
      · have hnone : ∀ p ∈ r.places f, r.statementAt? context f t p.1 = none := by
          intro p _
          simp only [statementAt?, layerAt?, hresolve, Option.bind_none]
        rw [hresolve] at hexecutions
        rw [List.filterMap_eq_nil_iff.mpr hnone]
        exact hexecutions
      · have hlayer : r.layerAt? context f t [] = some ⟨r.nested,
            rowFields r.resolver.paginated [f], r.resolver.table, resolution.nodes, u⟩ := by
          simp only [layerAt?, hresolve]
          rfl
        rw [hresolve] at hexecutions
        refine (Layer.issuesInOrder context ⟨r.nested, rowFields r.resolver.paginated [f],
          r.resolver.table, resolution.nodes, u⟩).trans ?_
        simp only [statementAt?, hlayer, Option.bind_some]
        rw [hexecutions]
        exact List.append_assoc _ _ _

end FieldResolver

end RelaySql
