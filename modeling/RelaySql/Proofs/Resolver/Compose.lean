import RelaySql.Proofs.Outcome
import RelaySql.Resolver.Compose

/-!
# Resolvers — what a composed query holds

`Resolver.compose_eq_ok` takes a composed query apart once: the join and the filter that were
composed, the statement built from them, and the window of a field served in pages.  Nothing else
is read off `Resolver.compose`.
-/

namespace RelaySql.Resolver

variable {C : Type}

/-- The statement a resolver composes, before a window is cut out of it. -/
def base (r : Resolver C) (join : Option Join) (filter : Option String) : Statement :=
  { table := r.table, join, filter, orderBy := r.orderBy }

/-- A statement with a window cut out of it, and the size of the whole. -/
def windowed (s : Statement) (w : PageWindow) : Statement :=
  { s with
    limit := w.limit
    offset := if w.offset = 0 then none else some w.offset
    countTotal := true }

theorem windowed_offset (s : Statement) (w : PageWindow) :
    (windowed s w).offset.getD 0 = w.offset := by
  by_cases h : w.offset = 0 <;> simp [windowed, h]

/-- The join of a statement: none at top level. -/
def joinFor (r : Resolver C) (args : Arguments) (context : C) :
    Option ParentBatch → Except Fault (Option Join)
  | none => .ok none
  | some parents => (r.composeJoin args context parents).map some

/-- The query of a statement: with the window that the arguments ask for, if the field is served
in pages. -/
def query (r : Resolver C) (args : Arguments) (s : Statement) : Except Fault ComposedQuery :=
  if r.paginated then do
    let request ← PageRequest.ofArguments args
    let bounds ← request.bounds
    return ⟨windowed s (.ofBounds bounds), some (.ofBounds bounds), request⟩
  else .ok ⟨s, none, {}⟩

/-- Composing is joining, filtering and cutting out the window, in this order. -/
theorem compose_eq (r : Resolver C) (args : Arguments) (context : C)
    (parents : Option ParentBatch) :
    r.compose args context parents =
      r.joinFor args context parents >>= fun join =>
        r.composeFilter args context >>= fun filter => r.query args (r.base join filter) := by
  cases parents <;> rfl

/-- **What a composed query holds.** -/
theorem compose_eq_ok {r : Resolver C} {args : Arguments} {context : C}
    {parents : Option ParentBatch} {q : ComposedQuery}
    (hq : r.compose args context parents = .ok q) :
    ∃ join filter, r.joinFor args context parents = .ok join ∧
      r.composeFilter args context = .ok filter ∧
      ((r.paginated = false ∧ q = ⟨r.base join filter, none, {}⟩) ∨
        (r.paginated = true ∧ ∃ request bounds, PageRequest.ofArguments args = .ok request ∧
          request.bounds = .ok bounds ∧
          q = ⟨windowed (r.base join filter) (.ofBounds bounds), some (.ofBounds bounds),
            request⟩)) := by
  rw [compose_eq] at hq
  obtain ⟨join, hj, hq⟩ := Except.bind_eq_ok.mp hq
  obtain ⟨filter, hf, hq⟩ := Except.bind_eq_ok.mp hq
  refine ⟨join, filter, hj, hf, ?_⟩
  simp only [query] at hq
  split at hq
  · next hp =>
      obtain ⟨request, hr, hq⟩ := Except.bind_eq_ok.mp hq
      obtain ⟨bounds, hb, hq⟩ := Except.bind_eq_ok.mp hq
      cases hq
      exact .inr ⟨hp, request, bounds, hr, hb, rfl⟩
  · next hp =>
      cases hq
      exact .inl ⟨Bool.eq_false_iff.mpr hp, rfl⟩

/-- The statement of a field at top level. -/
theorem statement_of_compose {r : Resolver C} {args : Arguments} {context : C} {q : ComposedQuery}
    (hq : r.compose args context none = .ok q) :
    q.statement.table = r.table ∧ q.statement.join = none := by
  obtain ⟨join, filter, hj, -, ⟨-, rfl⟩ | ⟨-, request, b, -, -, rfl⟩⟩ := compose_eq_ok hq
  · cases hj
    exact ⟨rfl, rfl⟩
  · cases hj
    exact ⟨rfl, rfl⟩

/-- The composed query of a field served in pages. -/
theorem compose_paginated {r : Resolver C} {args : Arguments} {context : C}
    {parents : Option ParentBatch} {q : ComposedQuery}
    (hq : r.compose args context parents = .ok q) (hp : r.paginated = true) :
    ∃ join filter request bounds, r.joinFor args context parents = .ok join ∧
      PageRequest.ofArguments args = .ok request ∧ request.bounds = .ok bounds ∧
      q = ⟨windowed (r.base join filter) (.ofBounds bounds), some (.ofBounds bounds), request⟩ := by
  obtain ⟨join, filter, hj, -, ⟨hn, -⟩ | ⟨-, request, bounds, hr, hb, rfl⟩⟩ := compose_eq_ok hq
  · rw [hp] at hn
    cases hn
  · exact ⟨join, filter, request, bounds, hj, hr, hb, rfl⟩

end RelaySql.Resolver
