import RelaySql.Proofs.Graph.Issued
import RelaySql.Proofs.Graph.Shown

/-!
# Loading — when some sources fail

Some of the resolvers of a schema are given sources that fail whenever they are asked.  The
others resolve as before, also for rows that differ in what was loaded into them before: what is
loaded is no key.

* `Schema.failing`: the schema, where some sources fail.
* `Resolver.toOption_compose`: the query of a nested field depends on how its rows are keyed.
* `Resolver.resolveNested_failing`, `Resolver.resolveNested_failed`: what a nested field resolves to
  where its source does not fail, and where it does.
-/

namespace RelaySql

/-- A source that answers every statement regardless of those before. -/
def Source.Stateless (source : Source) : Prop :=
  ∀ history history' statement, source.answer history statement = source.answer history' statement

/-- The resolvers whose sources fail, and how. -/
abbrev Failures (C : Type) :=
  Resolver C → Option ((history : List Statement) → Statement → SourceFault)

/-! ### Failing parts of a schema -/

section Parts

variable {C : Type} (failures : Failures C)

/-- The resolver, with a source that fails if it is to. -/
def Resolver.failing (r : Resolver C) : Resolver C :=
  match failures r with
  | none => r
  | some fault =>
    { r with source := ⟨r.source.name, fun history s => .error (fault history s)⟩ }

mutual

/-- The nested field, where sources fail. -/
def NestedField.failing : NestedField C → NestedField C
  | .mk column single resolver nested =>
    .mk column single (resolver.failing failures) (NestedField.allFailing nested)

def NestedField.allFailing : List (String × NestedField C) → List (String × NestedField C)
  | [] => []
  | (name, n) :: rest => (name, n.failing) :: NestedField.allFailing rest

end

/-- The field with a resolver, where sources fail. -/
def FieldResolver.failing (r : FieldResolver C) : FieldResolver C :=
  ⟨r.resolver.failing failures, NestedField.allFailing failures r.nested⟩

/-- How the value of a field is found, where sources fail. -/
def FieldKind.failing : FieldKind C → FieldKind C
  | .root r => .root (r.failing failures)
  | .nested => .nested
  | .column => .column

/-- The object type, where sources fail. -/
def ObjectType.failing (t : ObjectType C) : ObjectType C :=
  { t with fields := t.fields.map fun d => { d with kind := d.kind.failing failures } }

/-- The schema, where sources fail. -/
def Schema.failing (s : Schema C) : Schema C := ⟨s.objects.mapValues (ObjectType.failing failures)⟩

/-- The rows of a layer, where sources fail from here on. -/
def Layer.failing (l : Layer C) (t : Trace) : Layer C :=
  { l with nested := NestedField.allFailing failures l.nested, trace := t }

end Parts

namespace Resolver

variable {C : Type} {failures : Failures C} {r : Resolver C}

@[simp] theorem table_failing (failures : Failures C) (r : Resolver C) :
    (r.failing failures).table = r.table := by
  rw [failing]; split <;> rfl

@[simp] theorem paginated_failing (failures : Failures C) (r : Resolver C) :
    (r.failing failures).paginated = r.paginated := by
  rw [failing]; split <;> rfl

@[simp] theorem name_failing (failures : Failures C) (r : Resolver C) :
    (r.failing failures).source.name = r.source.name := by
  rw [failing]; split <;> rfl

@[simp] theorem compose_failing (failures : Failures C) (r : Resolver C) :
    (r.failing failures).compose = r.compose := by
  rw [failing]; split <;> rfl

theorem failing_of_none (h : failures r = none) : r.failing failures = r := by
  rw [failing, h]

theorem answer_failing {fault : List Statement → Statement → SourceFault}
    (h : failures r = some fault) (history : List Statement) (s : Statement) :
    (r.failing failures).source.answer history s = .error (fault history s) := by
  rw [failing, h]

end Resolver

namespace NestedField

variable {C : Type} {failures : Failures C}

theorem get?_allFailing (nested : List (String × NestedField C)) (name : String) :
    Fields.get? (allFailing failures nested) name =
      (Fields.get? nested name).map (failing failures) := by
  induction nested with
  | nil => rfl
  | cons p rest ih =>
      obtain ⟨n, f⟩ := p
      simp only [allFailing, Fields.get?, ih]
      split <;> rfl

theorem get?_allFailing_isSome (nested : List (String × NestedField C)) (name : String) :
    (Fields.get? (allFailing failures nested) name).isSome = (Fields.get? nested name).isSome := by
  rw [get?_allFailing, Option.isSome_map]

mutual

theorem failing_none : ∀ n : NestedField C, n.failing (fun _ => none) = n
  | .mk column single resolver nested => by
      rw [failing, allFailing_none nested, Resolver.failing_of_none rfl]

/-- Where no source fails, everything is as it was. -/
theorem allFailing_none : ∀ nested : List (String × NestedField C),
    allFailing (fun _ => none) nested = nested
  | [] => rfl
  | (name, n) :: rest => by rw [allFailing, failing_none n, allFailing_none rest]

end

end NestedField

namespace Schema

variable {C : Type} (failures : Failures C)

theorem object?_failing (s : Schema C) (name : String) :
    (s.failing failures).object? name = (s.object? name).map (ObjectType.failing failures) := by
  obtain ⟨objects⟩ := s
  simp only [object?, failing]
  induction objects with
  | nil => rfl
  | cons p rest ih =>
      obtain ⟨n, t⟩ := p
      simp only [Fields.mapValues, List.map_cons, Fields.get?] at ih ⊢
      split
      · rfl
      · exact ih

theorem root_failing (s : Schema C) : (s.failing failures).root = s.root.failing failures := by
  rw [root, root, object?_failing]
  cases s.object? rootType <;> rfl

end Schema

theorem ObjectType.field?_failing {C : Type} (failures : Failures C) (t : ObjectType C)
    (name : String) : (t.failing failures).field? name =
      (t.field? name).map fun d => { d with kind := d.kind.failing failures } := by
  simp only [field?, failing, List.find?_map]
  rfl

namespace Load

variable {C : Type} (failures : Failures C) (nested : List (String × NestedField C))
  (positions : List SelectedField)

/-- The same fields are loaded together, where sources fail. -/
theorem occurring_allFailing (key : String) :
    occurring (NestedField.allFailing failures nested) positions key =
      occurring nested positions key := by
  simp only [occurring, occurrences, NestedField.get?_planners, Option.isSome_map,
    NestedField.get?_allFailing_isSome]

theorem nestedKeys_allFailing :
    nestedKeys (NestedField.allFailing failures nested) positions = nestedKeys nested positions := by
  simp only [nestedKeys, NestedField.get?_allFailing_isSome]

end Load

/-! ### Rows that are keyed in the same way -/

namespace Row

/-- The value of the column is no key. -/
def Keyless (row : Row) (column : String) : Prop :=
  ∃ v, Fields.get? row column = some v ∧ (keyText v).toOption = none

/-- The rows have the same value in every column, but for values that are no keys. -/
def KeyedAlike (row row' : Row) : Prop :=
  ∀ column, Fields.get? row column = Fields.get? row' column ∨
    (row.Keyless column ∧ row'.Keyless column)

end Row

namespace ParentBatch

variable {table column : String} {rows rows' : List Row} {row row' : Row}

theorem toOption_keyOf_of_keyless (h : row.Keyless column) :
    ((ParentBatch.mk table column rows).keyOf row).toOption = none := by
  obtain ⟨v, hv, hkey⟩ := h
  simp only [keyOf, keyValue, hv, Except.toOption_bind]
  exact hkey

theorem toOption_addKey_of_keyless (h : row.Keyless column) (keys : Fields String) :
    ((ParentBatch.mk table column rows).addKey keys row).toOption = none := by
  obtain ⟨v, hv, hkey⟩ := h
  simp only [addKey, keyValue, hv, Except.toOption_bind]
  exact congrArg (Option.bind · _) hkey

/-- Rows that are keyed alike have the same keys. -/
theorem toOption_keyOf (h : row.KeyedAlike row') :
    ((ParentBatch.mk table column rows).keyOf row).toOption =
      ((ParentBatch.mk table column rows').keyOf row').toOption := by
  rcases h column with heq | ⟨hrow, hrow'⟩
  · simp only [keyOf, keyValue, heq]
  · rw [toOption_keyOf_of_keyless hrow, toOption_keyOf_of_keyless hrow']

theorem toOption_distinctKeys (h : List.Forall₂ Row.KeyedAlike rows rows') :
    (ParentBatch.mk table column rows).distinctKeys.toOption =
      (ParentBatch.mk table column rows').distinctKeys.toOption := by
  refine Except.toOption_foldlM (h.imp fun row row' halike keys => ?_) []
  rcases halike column with heq | ⟨hrow, hrow'⟩
  · simp only [addKey, keyValue, heq]
  · rw [toOption_addKey_of_keyless hrow, toOption_addKey_of_keyless hrow']

end ParentBatch

namespace Resolver

variable {C : Type} {failures : Failures C} {r : Resolver C} {args : Arguments} {context : C}
  {table column : String} {rows rows' : List Row}

/-- The query of a nested field depends on how the rows are keyed. -/
theorem toOption_compose (h : List.Forall₂ Row.KeyedAlike rows rows') :
    (r.compose args context (some ⟨table, column, rows⟩)).toOption =
      (r.compose args context (some ⟨table, column, rows'⟩)).toOption := by
  have hjoin : (r.composeJoin args context ⟨table, column, rows⟩).toOption =
      (r.composeJoin args context ⟨table, column, rows'⟩).toOption := by
    rw [composeJoin, composeJoin]
    cases r.join with
    | none => rfl
    | some condition =>
        simp only [Except.toOption_bind, ParentBatch.aliasFor]
        congr 1
        funext text
        split
        · rfl
        · simp only [Except.toOption_bind, ParentBatch.toOption_distinctKeys h]
  simp only [compose, Except.toOption_bind, Except.toOption_map, hjoin]

/-- A field at top level whose source does not fail. -/
theorem resolve_failing (hnone : failures r = none) (hstateless : r.source.Stateless)
    (t t' : Trace) :
    (((r.failing failures).resolve args context).after t').1 =
      ((r.resolve args context).after t).1 := by
  rw [failing_of_none hnone]
  cases hq : r.compose args context none with
  | error e => rw [resolve_of_compose_eq_error hq, resolve_of_compose_eq_error hq]
  | ok q =>
      rw [resolve_after hq, resolve_after hq, hstateless _ (t.statements r.source.name)]
      split <;> rfl

/-- A field at top level whose source fails. -/
theorem resolve_failed {fault : List Statement → Statement → SourceFault}
    (hsome : failures r = some fault) {q : ComposedQuery}
    (hq : r.compose args context none = .ok q) (t : Trace) :
    ∃ history, (((r.failing failures).resolve args context).after t).1 =
      .error (.source (fault history q.statement)) := by
  have hq' : (r.failing failures).compose args context none = .ok q := by rwa [compose_failing]
  refine ⟨t.statements (r.failing failures).source.name, ?_⟩
  rw [resolve_after hq', answer_failing hsome]

/-- Without keys there is nothing to resolve. -/
theorem resolveNested_of_no_keys {parents : ParentBatch} {q : ComposedQuery}
    (hq : r.compose args context (some parents) = .ok q) (hk : parents.distinctKeys = .ok [])
    (t : Trace) : (r.resolveNested args context parents).after t = (.ok [], t) := by
  simp only [resolveNested, Run.after_bind, Run.after_lift, hq, hk, if_true]
  rfl

/-- **A nested field whose source does not fail** resolves to the same values for rows that are keyed
in the same way. -/
theorem resolveNested_failing (hnone : failures r = none) (hstateless : r.source.Stateless)
    (h : List.Forall₂ Row.KeyedAlike rows rows') (t t' : Trace) :
    (((r.failing failures).resolveNested args context ⟨table, column, rows'⟩).after t').1.toOption =
      ((r.resolveNested args context ⟨table, column, rows⟩).after t).1.toOption := by
  rw [failing_of_none hnone]
  have hcompose : (r.compose args context (some ⟨table, column, rows⟩)).toOption =
      (r.compose args context (some ⟨table, column, rows'⟩)).toOption := toOption_compose h
  cases hq : r.compose args context (some ⟨table, column, rows⟩) with
  | error e =>
      rw [hq] at hcompose
      obtain ⟨e', hq'⟩ := Except.toOption_eq_none.mp hcompose.symm
      rw [resolveNested_of_compose_eq_error hq, resolveNested_of_compose_eq_error hq']
      rfl
  | ok q =>
      rw [hq] at hcompose
      have hq' := Except.toOption_eq_some.mp hcompose.symm
      obtain ⟨keys, hk⟩ := ParentBatch.distinctKeys_of_compose hq
      have hkeys : (ParentBatch.mk table column rows).distinctKeys.toOption =
          (ParentBatch.mk table column rows').distinctKeys.toOption :=
        ParentBatch.toOption_distinctKeys h
      rw [hk] at hkeys
      have hk' := Except.toOption_eq_some.mp hkeys.symm
      by_cases hnil : keys = []
      · subst hnil
        rw [resolveNested_of_no_keys hq hk, resolveNested_of_no_keys hq' hk']
      · rw [resolveNested_after hq hk hnil, resolveNested_after hq' hk' hnil,
          hstateless _ (t.statements r.source.name)]
        split <;> rfl

/-- A nested field whose source fails. -/
theorem resolveNested_failed {fault : List Statement → Statement → SourceFault}
    (hsome : failures r = some fault) {parents : ParentBatch} (hrows : parents.rows ≠ [])
    {q : ComposedQuery} (hq : r.compose args context (some parents) = .ok q) (t : Trace) :
    ∃ history, (((r.failing failures).resolveNested args context parents).after t).1 =
      .error (.source (fault history q.statement)) := by
  have hq' : (r.failing failures).compose args context (some parents) = .ok q := by
    rwa [compose_failing]
  obtain ⟨keys, hk⟩ := ParentBatch.distinctKeys_of_compose hq
  have hne := ParentBatch.distinctKeys_ne_nil hk hrows
  refine ⟨t.statements (r.failing failures).source.name, ?_⟩
  rw [resolveNested_after hq' hk hne, answer_failing hsome]

/-- A field at top level whose source fails does not resolve. -/
theorem exists_resolve_error_of_failing (hsome : (failures r).isSome) (t : Trace) :
    ∃ e, (((r.failing failures).resolve args context).after t).1 = .error e := by
  obtain ⟨fault, hfault⟩ := Option.isSome_iff_exists.mp hsome
  cases hq : r.compose args context none with
  | ok q =>
      obtain ⟨history, h⟩ := resolve_failed hfault hq t
      exact ⟨_, h⟩
  | error e =>
      rw [← compose_failing failures] at hq
      exact ⟨e, congrArg Prod.fst (resolve_of_compose_eq_error hq t)⟩

/-- A nested field whose source fails does not resolve. -/
theorem exists_error_of_failing (hsome : (failures r).isSome) {parents : ParentBatch}
    (hrows : parents.rows ≠ []) (t : Trace) :
    ∃ e, (((r.failing failures).resolveNested args context parents).after t).1 = .error e := by
  obtain ⟨fault, hfault⟩ := Option.isSome_iff_exists.mp hsome
  cases hq : r.compose args context (some parents) with
  | ok q =>
      obtain ⟨history, h⟩ := resolveNested_failed hfault hrows hq t
      exact ⟨_, h⟩
  | error e =>
      rw [← compose_failing failures] at hq
      exact ⟨e, congrArg Prod.fst (resolveNested_of_compose_eq_error hq t)⟩

end Resolver

namespace Turn

variable {C : Type} {context : C} (turn : Turn C)

theorem layer?_of_error {e : Fault} (h : ((turn.resolver.resolveNested turn.arguments context
    turn.parents).after turn.trace).1 = .error e) : turn.layer? context = none := by
  rw [layer?]
  split
  · next hok =>
      rw [hok] at h
      cases h
  · rfl

theorem layer?_of_ok {groups : Fields Resolution} {u : Trace}
    (h : (turn.resolver.resolveNested turn.arguments context turn.parents).after turn.trace =
      (.ok groups, u)) :
    turn.layer? context = some ⟨turn.nested, turn.positions, turn.resolver.table,
      groups.values.flatMap Resolution.nodes, u⟩ := by
  rw [layer?, h]

end Turn

end RelaySql
