import RelaySql.Proofs.Source.Children

/-!
# Resolvers — the shape of a value

A resolver that serves pages resolves to a connection, and any other to a list of rows.  Every row
of the value was given by the source, without the columns that statements add.

* `Resolver.shapes_resolve`, `Resolver.shapes_resolveNested`: the values that a resolver resolves to
  have its shape.
-/

namespace RelaySql

/-- The source answers some statement with the row. -/
def Source.Gives (source : Source) (row : Row) : Prop :=
  ∃ history statement answer, source.answer history statement = .ok answer ∧ row ∈ answer

namespace ComposedQuery

variable {q : ComposedQuery}

theorem isConnection_finish {rows : List Row} {value : Resolution}
    (h : q.finish rows = .ok value) : value.isConnection = q.isPaginated := by
  simp only [finish] at h
  split at h
  · next hw =>
      cases h
      rw [isPaginated, hw]
      rfl
  · next window hw =>
      obtain ⟨⟨shown, place⟩, -, h⟩ := Except.bind_eq_ok.mp h
      obtain ⟨page, -, h⟩ := Except.bind_eq_ok.mp h
      cases h
      rw [isPaginated, hw]
      rfl

theorem isConnection_finishGroup {rows : List Row} {value : Resolution}
    (h : q.finishGroup rows = .ok value) : value.isConnection = q.isPaginated := by
  simp only [finishGroup] at h
  split at h
  · rw [← Except.ok.inj h, empty, isPaginated]
    cases q.window <;> rfl
  · exact isConnection_finish h

end ComposedQuery

namespace Resolver

variable {C : Type} {r : Resolver C} {args : Arguments} {context : C}

/-- The value has the shape that the resolver serves, and its rows are given by the source. -/
structure Shapes (r : Resolver C) (value : Resolution) : Prop where
  paginated : value.isConnection = r.paginated
  given : ∀ node ∈ value.nodes, ∃ row, r.source.Gives row ∧ node = row.visible

theorem isPaginated_of_compose {parents : Option ParentBatch} {q : ComposedQuery}
    (hq : r.compose args context parents = .ok q) : q.isPaginated = r.paginated := by
  obtain ⟨-, -, -, -, ⟨hp, rfl⟩ | ⟨hp, -, -, -, -, rfl⟩⟩ := compose_eq_ok hq
  · exact hp.symm
  · exact hp.symm

/-- Rows that the source answers with. -/
theorem gives_of_execute {s : Statement} {rows : List Row} {t u : Trace}
    (h : (r.execute s).after t = (.ok rows, u)) : ∀ row ∈ rows, r.source.Gives row := by
  rw [execute_after] at h
  split at h
  · next answer hanswer =>
      obtain rfl := Except.ok.inj (Prod.mk.inj h).1
      exact fun row hrow => ⟨_, s, answer, hanswer, hrow⟩
  · cases (Prod.mk.inj h).1

/-- **The value of a field at top level has its shape.** -/
theorem shapes_resolve {value : Resolution} {t : Trace}
    (h : ((r.resolve args context).after t).1 = .ok value) : r.Shapes value := by
  obtain ⟨q, u, hq, h⟩ := Run.after_bind_eq_ok h
  obtain ⟨rows, u', hrows, h⟩ := Run.after_bind_eq_ok h
  rw [Run.after_lift] at hq h
  have hpaginated := isPaginated_of_compose (Prod.mk.inj hq).1
  refine ⟨hpaginated ▸ ComposedQuery.isConnection_finish h, fun node hn => ?_⟩
  obtain ⟨row, hrow, rfl⟩ := ComposedQuery.nodes_finish h node hn
  exact ⟨row, gives_of_execute hrows row hrow, rfl⟩

/-- Rows that are shared out keep to the rows of the answer. -/
theorem mem_of_groupRows {table : String} {keys : Fields String} (hkeys : keys.keys.Nodup)
    {rows : List Row} {groups : Fields (List Row)} (h : groupRows table keys rows = .ok groups) :
    ∀ group ∈ groups, group.2 ⊆ rows := by
  by_cases hplaced : ∀ row ∈ rows, ∃ key ∈ keys.keys, row.parentText? = some key
  · rw [groupRows_eq_ok hkeys table hplaced] at h
    obtain rfl := Except.ok.inj h
    intro group hgroup
    obtain ⟨key, -, rfl⟩ := List.mem_map.mp hgroup
    exact fun row hrow => (mem_childrenWith.mp hrow).1
  · push Not at hplaced
    obtain ⟨cause, hcause⟩ := groupRows_eq_error hkeys table hplaced
    rw [hcause] at h
    cases h

/-- **The values of a nested field have its shape.** -/
theorem shapes_resolveNested {parents : ParentBatch} {groups : Fields Resolution} {t : Trace}
    (h : ((r.resolveNested args context parents).after t).1 = .ok groups) :
    ∀ value ∈ groups.values, r.Shapes value := by
  obtain ⟨q, u, hq, h⟩ := Run.after_bind_eq_ok h
  obtain ⟨keys, u', hkeys, h⟩ := Run.after_bind_eq_ok h
  rw [Run.after_lift] at hq hkeys
  have hpaginated := isPaginated_of_compose (Prod.mk.inj hq).1
  have hnodup := ParentBatch.nodup_distinctKeys (Prod.mk.inj hkeys).1
  split at h
  · cases h
    intro value hvalue
    cases hvalue
  · obtain ⟨rows, u'', hrows, h⟩ := Run.after_bind_eq_ok h
    obtain ⟨shared, v, hshared, h⟩ := Run.after_bind_eq_ok h
    rw [Run.after_lift] at hshared h
    intro value hm
    obtain ⟨⟨key, _⟩, hgroup, rfl⟩ := List.mem_map.mp hm
    rw [finishGroups_eq] at h
    obtain ⟨group, hshare, hfinish⟩ := Except.exists_of_mem_mapM h hgroup
    obtain ⟨value, hvalue, hpair⟩ := Except.map_eq_ok.mp hfinish
    obtain rfl := (Prod.mk.inj hpair).2
    refine ⟨hpaginated ▸ ComposedQuery.isConnection_finishGroup hvalue, fun node hn => ?_⟩
    obtain ⟨row, hrow, rfl⟩ := ComposedQuery.nodes_finishGroup hvalue node hn
    have hanswer := mem_of_groupRows hnodup (Prod.mk.inj hshared).1 group hshare hrow
    exact ⟨row, gives_of_execute hrows row hanswer, rfl⟩

end Resolver

end RelaySql
