import RelaySql.Resolver.Resolve

/-!
# Runs — what a computation returns, and the trace it leaves

`Run.after r t` is the result of the computation `r` started after the trace `t`, with the trace it
leaves.  Sequencing, failing and catching are read off it one step at a time, so that no later
proof opens the monad.

* `Resolver.execute_after`: a statement handed to a source leaves one line and the statement itself
  in the trace, and the source's answer depends on the statements it was handed before.
* `Resolver.resolve_after`, `Resolver.resolveNested_after`: a resolution is the composed statement,
  the source's answer to it, and what becomes of the rows.
* `Resolver.executions_resolve`, `Resolver.executions_resolveNested`: it hands that statement to the
  source once.
-/

namespace RelaySql

namespace Run

variable {α β : Type}

/-- What a computation returns when it is started after the trace `t`, and the trace it leaves. -/
def after (r : Run α) (t : Trace) : Except Fault α × Trace := (ExceptT.run r).run t

theorem after_pure (a : α) (t : Trace) : (pure a : Run α).after t = (.ok a, t) := rfl

theorem after_lift (e : Except Fault α) (t : Trace) : (liftM e : Run α).after t = (e, t) := rfl

theorem after_throw (e : Fault) (t : Trace) : (throw e : Run α).after t = (.error e, t) := rfl

theorem after_get (t : Trace) : (get : Run Trace).after t = (.ok t, t) := rfl

theorem after_note (e : Event) (t : Trace) : (note e).after t = (.ok (), t ++ [e]) := rfl

theorem after_bind (r : Run α) (f : α → Run β) (t : Trace) :
    (r >>= f).after t =
      match r.after t with
      | (.ok a, u) => (f a).after u
      | (.error e, u) => (.error e, u) := by
  simp only [after, ExceptT.run_bind, StateT.run_bind]
  rcases (ExceptT.run r).run t with ⟨_ | _, _⟩ <;> rfl

theorem after_tryCatch (r : Run α) (f : Fault → Run α) (t : Trace) :
    (tryCatch r f).after t =
      match r.after t with
      | (.ok a, u) => (.ok a, u)
      | (.error e, u) => (f e).after u := by
  simp only [after, ExceptT.run_tryCatch, StateT.run_bind]
  rcases (ExceptT.run r).run t with ⟨_ | _, _⟩ <;> rfl

variable {r : Run α} {f : α → Run β} {t : Trace}

/-- What comes after a computation that returned something; the trace it left is some trace. -/
theorem after_bind_of_ok {a : α} (h : (r.after t).1 = .ok a) :
    ∃ u, (r >>= f).after t = (f a).after u := by
  rw [after_bind]
  rcases hr : r.after t with ⟨_ | b, u⟩
  · rw [hr] at h
    cases h
  · rw [hr] at h
    cases h
    exact ⟨u, rfl⟩

theorem after_bind_of_error {e : Fault} (h : (r.after t).1 = .error e) :
    ((r >>= f).after t).1 = .error e := by
  rw [after_bind]
  rcases hr : r.after t with ⟨_ | b, u⟩
  · rw [hr] at h
    cases h
    rfl
  · rw [hr] at h
    cases h

/-- A sequence that returned something, taken apart. -/
theorem after_bind_eq_ok {b : β} (h : ((r >>= f).after t).1 = .ok b) :
    ∃ a u, r.after t = (.ok a, u) ∧ ((f a).after u).1 = .ok b := by
  rw [after_bind] at h
  rcases hr : r.after t with ⟨_ | a, u⟩
  · rw [hr] at h
    cases h
  · rw [hr] at h
    exact ⟨a, u, rfl, h⟩

/-- What is caught is handled, and anything else is returned. -/
theorem tryCatch_result (g : Fault → α) (t : Trace) :
    ((tryCatch r fun e => pure (g e)).after t).1 =
      .ok (match (r.after t).1 with
        | .ok a => a
        | .error e => g e) := by
  rw [after_tryCatch]
  rcases r.after t with ⟨_ | _, _⟩ <;> rfl

end Run

namespace Trace

/-- A logged line hands nothing to a source. -/
theorem statements_logged (t : Trace) (level : Level) (text name : String) :
    statements (t ++ [.logged level text]) name = statements t name := by
  simp [statements, executions]

end Trace

namespace Resolver

variable {C : Type}

/-- What a statement leaves in the trace when it is handed to the source. -/
def asking (r : Resolver C) (s : Statement) : Trace :=
  [.logged .debug ("Resolving " ++ r.table ++ ": " ++ Text.oneLine s.sql),
    .executed r.source.name s]

/-- What a failure of the source leaves in the trace. -/
def sourceFailing (r : Resolver C) (fault : SourceFault) : Trace :=
  [.logged .warn ("Data source failed resolving " ++ r.table ++ ": " ++ fault.message)]

theorem execute_after (r : Resolver C) (s : Statement) (t : Trace) :
    (r.execute s).after t =
      match r.source.answer (t.statements r.source.name) s with
      | .ok rows => (.ok rows, t ++ r.asking s)
      | .error fault => (.error (.source fault), t ++ r.asking s ++ r.sourceFailing fault) := by
  simp only [execute, Run.after_bind, Run.after_note, Run.after_get, Trace.statements_logged]
  cases r.source.answer (t.statements r.source.name) s with
  | ok rows => simp [Run.after_pure, asking]
  | error fault =>
      simp only [Run.after_bind, Run.after_note, Run.after_throw]
      simp [asking, sourceFailing]

/-- A resolution at top level, once its statement is composed. -/
theorem resolve_after {r : Resolver C} {args : Arguments} {context : C} {q : ComposedQuery}
    (hq : r.compose args context none = .ok q) (t : Trace) :
    (r.resolve args context).after t =
      match r.source.answer (t.statements r.source.name) q.statement with
      | .ok rows => (q.finish rows, t ++ r.asking q.statement)
      | .error fault =>
        (.error (.source fault), t ++ r.asking q.statement ++ r.sourceFailing fault) := by
  simp only [resolve, Run.after_bind, Run.after_lift, hq, execute_after]
  cases r.source.answer (t.statements r.source.name) q.statement <;> rfl

/-- A resolution whose statement fails to be composed asks nothing. -/
theorem resolve_of_compose_eq_error {r : Resolver C} {args : Arguments} {context : C} {e : Fault}
    (hq : r.compose args context none = .error e) (t : Trace) :
    (r.resolve args context).after t = (.error e, t) := by
  simp only [resolve, Run.after_bind, Run.after_lift, hq]

/-- A nested resolution whose statement fails to be composed asks nothing. -/
theorem resolveNested_of_compose_eq_error {r : Resolver C} {args : Arguments} {context : C}
    {parents : ParentBatch} {e : Fault} (hq : r.compose args context (some parents) = .error e)
    (t : Trace) : (r.resolveNested args context parents).after t = (.error e, t) := by
  simp only [resolveNested, Run.after_bind, Run.after_lift, hq]

/-- A resolution that returns something has composed its query. -/
theorem exists_query_of_resolve {r : Resolver C} {args : Arguments} {context : C} {t : Trace}
    {value : Resolution} (h : ((r.resolve args context).after t).1 = .ok value) :
    ∃ q, r.compose args context none = .ok q := by
  cases hq : r.compose args context none with
  | ok q => exact ⟨q, rfl⟩
  | error e =>
      rw [resolve_of_compose_eq_error hq] at h
      cases h

/-- A nested resolution that returns something has composed its query. -/
theorem exists_query_of_resolveNested {r : Resolver C} {args : Arguments} {context : C}
    {parents : ParentBatch} {t : Trace} {groups : Fields Resolution}
    (h : ((r.resolveNested args context parents).after t).1 = .ok groups) :
    ∃ q, r.compose args context (some parents) = .ok q := by
  cases hq : r.compose args context (some parents) with
  | ok q => exact ⟨q, rfl⟩
  | error e =>
      rw [resolveNested_of_compose_eq_error hq] at h
      cases h

/-- A nested resolution of a batch with keys, once its statement is composed. -/
theorem resolveNested_after {r : Resolver C} {args : Arguments} {context : C}
    {parents : ParentBatch} {q : ComposedQuery} {keys : Fields String}
    (hq : r.compose args context (some parents) = .ok q) (hk : parents.distinctKeys = .ok keys)
    (hne : keys ≠ []) (t : Trace) :
    (r.resolveNested args context parents).after t =
      match r.source.answer (t.statements r.source.name) q.statement with
      | .ok rows =>
        (groupRows r.table keys rows >>= finishGroups q, t ++ r.asking q.statement)
      | .error fault =>
        (.error (.source fault), t ++ r.asking q.statement ++ r.sourceFailing fault) := by
  simp only [resolveNested, Run.after_bind, Run.after_lift, hq, hk, hne, if_false, execute_after]
  cases r.source.answer (t.statements r.source.name) q.statement with
  | error fault => rfl
  | ok rows => cases h : groupRows r.table keys rows <;> simp [h] <;> rfl

/-! ### Statements in the trace -/

theorem executions_asking (r : Resolver C) (s : Statement) (t : Trace) :
    Trace.executions (t ++ r.asking s) = t.executions ++ [(r.source.name, s)] := by
  rw [Trace.executions_append]
  rfl

theorem executions_sourceFailing (r : Resolver C) (fault : SourceFault) (t : Trace) :
    Trace.executions (t ++ r.sourceFailing fault) = t.executions := by
  rw [Trace.executions_append]
  exact List.append_nil _

/-- **A resolution hands its statement to the source once**, whatever the source answers. -/
theorem executions_resolve {r : Resolver C} {args : Arguments} {context : C} {q : ComposedQuery}
    (hq : r.compose args context none = .ok q) (t : Trace) :
    Trace.executions ((r.resolve args context).after t).2 =
      t.executions ++ [(r.source.name, q.statement)] := by
  rw [resolve_after hq]
  cases r.source.answer (t.statements r.source.name) q.statement with
  | ok rows => exact executions_asking r q.statement t
  | error fault => exact (executions_sourceFailing r fault _).trans (executions_asking r _ t)

/-- **A nested resolution hands its statement to the source once**, whatever the source answers and
whether or not the rows can be shared out. -/
theorem executions_resolveNested {r : Resolver C} {args : Arguments} {context : C}
    {parents : ParentBatch} {q : ComposedQuery} {keys : Fields String}
    (hq : r.compose args context (some parents) = .ok q) (hk : parents.distinctKeys = .ok keys)
    (hne : keys ≠ []) (t : Trace) :
    Trace.executions ((r.resolveNested args context parents).after t).2 =
      t.executions ++ [(r.source.name, q.statement)] := by
  rw [resolveNested_after hq hk hne]
  cases r.source.answer (t.statements r.source.name) q.statement with
  | ok rows => exact executions_asking r q.statement t
  | error fault => exact (executions_sourceFailing r fault _).trans (executions_asking r _ t)

end Resolver

end RelaySql
