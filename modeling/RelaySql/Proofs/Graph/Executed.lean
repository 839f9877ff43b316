import RelaySql.Graph.Execution
import RelaySql.Proofs.Run

/-!
# Execution — one step after another

What an execution returns and leaves behind, step by step.

* `Execution.after_bind`: a sequence goes on with what its first step returned, from where that step
  ended, unless the step ended the request.
* `Execution.after_rootValue`: a field with a resolver is loaded in the context of the request.
* `Schema.execute_eq`: what a response tells of its execution.
-/

namespace RelaySql

namespace Execution

variable {α β C : Type}

/-- What an execution returns, and the progress after it. -/
def after (m : Execution α) (p : Progress) : Except Report α × Progress := (ExceptT.run m).run p

theorem after_bind (m : Execution α) (f : α → Execution β) (p : Progress) :
    (m >>= f).after p =
      match m.after p with
      | (.ok a, q) => (f a).after q
      | (.error e, q) => (.error e, q) := by
  simp only [after, ExceptT.run_bind, StateT.run_bind]
  rcases (ExceptT.run m).run p with ⟨_ | _, _⟩ <;> rfl

theorem after_bind_of_ok {m : Execution α} {f : α → Execution β} {p q : Progress} {a : α}
    (h : m.after p = (.ok a, q)) : (m >>= f).after p = (f a).after q := by
  rw [after_bind, h]

theorem after_bind_of_error {m : Execution α} {f : α → Execution β} {p q : Progress} {e : Report}
    (h : m.after p = (.error e, q)) : (m >>= f).after p = (.error e, q) := by
  rw [after_bind, h]

theorem after_map (f : α → β) (m : Execution α) (p : Progress) :
    (f <$> m).after p = ((m.after p).1.map f, (m.after p).2) := by
  rw [map_eq_pure_bind, after_bind]
  rcases m.after p with ⟨_ | _, _⟩ <;> rfl

theorem after_run (r : Run α) (p : Progress) :
    (run r).after p = (.ok (r.after p.trace).1, { p with trace := (r.after p.trace).2 }) := rfl

/-- The value of a field with a resolver: what it loads, or its fault. -/
def rootResult (result : Except Fault Resolution) : Except String Json :=
  match result with
  | .ok resolution => .ok resolution.toJson
  | .error fault => .error fault.message

theorem after_rootValue (context : C) (r : FieldResolver C) (f : SelectedField) (p : Progress) :
    (rootValue (some context) r f).after p =
      (.ok (rootResult ((r.load context f).after p.trace).1),
        { p with trace := ((r.load context f).after p.trace).2 }) := by
  simp only [rootValue, after_bind, after_run, rootResult]
  cases ((r.load context f).after p.trace).1 <;> rfl

theorem after_isolate_nullable {type : TypeRef} (h : type.nullable) (path : Path)
    (message : String) (p : Progress) :
    (isolate type path (.error message)).after p =
      (.ok none, { p with reports := p.reports ++ [⟨message, path⟩] }) := by
  simp only [isolate, h, if_true]
  rfl

theorem after_isolate_nonNull {type : TypeRef} (h : type.nullable = false) (path : Path)
    (message : String) (p : Progress) :
    (isolate type path (.error message)).after p = (.error ⟨message, []⟩, p) := by
  simp only [isolate, h]
  rfl

end Execution

namespace Schema

variable {C : Type}

/-- The type that a request selects on first. -/
def root (s : Schema C) : ObjectType C := (s.object? rootType).getD ⟨rootType, []⟩

/-- What a response tells of the execution of its request. -/
def respond : Except Report (List (String × Json)) × Progress → Response
  | (.ok values, p) => ⟨.object (Json.mergeMembers [] values), p.reports, p.trace⟩
  | (.error report, p) => ⟨.null, report :: p.reports, p.trace⟩

theorem execute_eq (s : Schema C) (context : Option C) (request : List Selection) :
    s.execute context request =
      respond ((Execution.parts s context s.root .null [] request).after {}) := by
  simp only [execute, Execution.after, root]
  rcases StateT.run _ _ with ⟨_ | _, _⟩ <;> rfl

end Schema

end RelaySql
