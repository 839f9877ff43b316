import RelaySql.Proofs.Graph.Answers

/-!
# Execution — one that follows another

A request is executed twice: with the sources as they are, and with some that fail.  The second
execution follows the first one, which reports nothing, step by step: it returns something related,
reports the faults of the fields that fail in it, and issues its statements.

* `Execution.Follows`: an execution that follows another.
* `Execution.follows_bind`: a sequence follows another when its steps do.
* `Execution.follows_isolate_failed`: a field that fails in the second execution only.
-/

namespace RelaySql

/-- The report tells the fault of a source that fails, in the place of the field that it serves. -/
def Report.Tells {C : Type} (failures : Failures C) (fault : Path × Resolver C) (report : Report) :
    Prop :=
  report.path = fault.1 ∧ ∃ failure, failures fault.2 = some failure ∧ ∃ history s,
    report.message = (Fault.source (failure history s)).message

namespace Execution

variable {C α β γ δ : Type}

/-! ### What is reported -/

/-- An execution adds to what was reported before. -/
def Grows (m : Execution α) : Prop := ∀ p, ∃ more, (m.after p).2.reports = p.reports ++ more

theorem grows_pure (a : α) : Grows (pure a) := fun _ => ⟨[], (List.append_nil _).symm⟩

theorem grows_throw (report : Report) : Grows (throw report : Execution α) :=
  fun _ => ⟨[], (List.append_nil _).symm⟩

theorem grows_bind {m : Execution α} {f : α → Execution β} (hm : Grows m) (hf : ∀ a, Grows (f a)) :
    Grows (m >>= f) := by
  intro p
  obtain ⟨more, hmore⟩ := hm p
  rcases h : m.after p with ⟨e | a, q⟩ <;> rw [h] at hmore
  · exact ⟨more, by rw [after_bind_of_error h, hmore]⟩
  · obtain ⟨rest, hrest⟩ := hf a q
    exact ⟨more ++ rest, by rw [after_bind_of_ok h, hrest, hmore, List.append_assoc]⟩

theorem grows_isolate (type : TypeRef) (path : Path) (value : Except String Json) :
    Grows (isolate type path value) := by
  cases value with
  | ok v => exact grows_pure _
  | error message =>
      intro p
      cases htype : type.nullable with
      | true =>
          rw [after_isolate_nullable htype]
          exact ⟨_, rfl⟩
      | false =>
          rw [after_isolate_nonNull htype]
          exact ⟨[], (List.append_nil _).symm⟩

theorem grows_rootValue (context : Option C) (r : FieldResolver C) (f : SelectedField) :
    Grows (rootValue context r f) := by
  cases context with
  | none => exact grows_pure _
  | some context =>
      intro p
      rw [after_rootValue]
      exact ⟨[], (List.append_nil _).symm⟩

theorem grows_fieldValue (context : Option C) (d : FieldDef C) (parent : Json) (path : Path)
    (f : SelectedField) : Grows (fieldValue context d parent path f) := by
  cases hkind : d.kind with
  | root r =>
      simp only [fieldValue, hkind]
      exact grows_bind (grows_rootValue context r f) fun _ => grows_isolate _ _ _
  | nested =>
      simp only [fieldValue, hkind]
      exact grows_isolate _ _ _
  | column =>
      simp only [fieldValue, hkind]
      exact grows_pure _

theorem grows_eachItem {item : Json → Path → Execution α} (h : ∀ v path, Grows (item v path))
    (path : Path) (start : Nat) (items : List Json) : Grows (eachItem item path start items) := by
  induction items generalizing start with
  | nil => exact grows_pure _
  | cons v rest ih => exact grows_bind (h _ _) fun _ => grows_bind (ih _) fun _ => grows_pure _

theorem grows_answerValue (s : Schema C)
    {object : ObjectType C → Json → Path → Execution (Answer C)}
    (h : ∀ type v path, Grows (object type v path)) (type : TypeRef) (v : Option Json)
    (path : Path) : Grows (answerValue s object type v path) := by
  induction type generalizing v path with
  | nonNull type ih =>
      cases v with
      | none => exact grows_throw _
      | some v => exact ih (some v) path
  | list item ih =>
      cases v with
      | none => exact grows_pure _
      | some v =>
          cases v with
          | array items =>
              exact grows_bind (grows_eachItem (fun v path => ih (some v) path) path 0 items)
                fun _ => grows_pure _
          | null | boolean | number | string | object => exact grows_throw _
  | named name =>
      cases v with
      | none => exact grows_pure _
      | some v =>
          simp only [answerValue]
          cases s.object? name with
          | some type => exact h type v path
          | none =>
              cases v with
              | array items => exact grows_throw _
              | null | boolean | number | string | object => exact grows_pure _

theorem grows_answerParts (s : Schema C) (context : Option C) (scope : Scope C)
    (type : ObjectType C) (parent : Json) (path : Path) : ∀ selections : List Selection,
      Grows (answerParts s context scope type parent path selections)
  | [] => grows_pure _
  | selection :: rest => by
      have hpart : Grows (answerPart s context scope type parent path selection) := by
        cases selection with
        | fragment on inner =>
            simp only [answerPart]
            split
            · exact grows_answerParts s context scope type parent path inner
            · exact grows_pure _
        | field key name arguments inner =>
            simp only [answerPart]
            split
            · exact grows_pure _
            cases type.field? name with
            | none => exact grows_pure _
            | some d =>
                refine grows_bind (grows_fieldValue _ _ _ _ _) fun value => ?_
                refine grows_bind (grows_answerValue s (fun type v path => ?_) _ _ _)
                  fun _ => grows_pure _
                exact grows_bind (grows_answerParts s context _ type v path inner)
                  fun _ => grows_pure _
      exact grows_bind hpart fun _ =>
        grows_bind (grows_answerParts s context scope type parent path rest) fun _ => grows_pure _

/-! ### Executions that follow others -/

/-- When the first execution reports nothing, the second goes the same way where sources fail: what
they return is related, with the fields whose faults the second one reports and the statements that
it issues. -/
structure Follows (failures : Failures C) (m : Execution α) (m' : Execution β)
    (returned : α → β → List (Path × Resolver C) → List (String × Statement) → Prop) : Prop where
  grows : Grows m
  follows : ∀ p a, (m.after p).1 = .ok a → (m.after p).2.reports = p.reports → ∀ p',
    ∃ b faults issued reports, returned a b faults issued ∧ (m'.after p').1 = .ok b ∧
      (m'.after p').2.reports = p'.reports ++ reports ∧
      List.Forall₂ (Report.Tells failures) faults reports ∧
      (m'.after p').2.trace.executions = p'.trace.executions ++ issued

variable {failures : Failures C}

theorem follows_pure {a : α} {b : β}
    {returned : α → β → List (Path × Resolver C) → List (String × Statement) → Prop}
    (h : returned a b [] []) : Follows failures (pure a) (pure b) returned := by
  refine ⟨grows_pure a, ?_⟩
  rintro p a' ha - p'
  obtain rfl := Except.ok.inj ha
  exact ⟨b, [], [], [], h, rfl, (List.append_nil _).symm, .nil, (List.append_nil _).symm⟩

/-- What is null in the second execution, whatever the first one returns. -/
theorem follows_of_grows {m : Execution α} {b : β}
    {returned : α → β → List (Path × Resolver C) → List (String × Statement) → Prop}
    (hgrows : Grows m) (h : ∀ a, returned a b [] []) : Follows failures m (pure b) returned := by
  refine ⟨hgrows, ?_⟩
  rintro p a - - p'
  exact ⟨b, [], [], [], h a, rfl, (List.append_nil _).symm, .nil, (List.append_nil _).symm⟩

theorem follows_throw (report : Report) (m' : Execution β)
    (returned : α → β → List (Path × Resolver C) → List (String × Statement) → Prop) :
    Follows failures (throw report : Execution α) m' returned :=
  ⟨grows_throw report, fun _ _ ha => nomatch ha⟩

theorem follows_bind {m : Execution α} {m' : Execution β} {f : α → Execution γ}
    {f' : β → Execution δ}
    {middle : α → β → List (Path × Resolver C) → List (String × Statement) → Prop}
    {returned : γ → δ → List (Path × Resolver C) → List (String × Statement) → Prop}
    (hm : Follows failures m m' middle) (hgrows : ∀ a, Grows (f a))
    (hf : ∀ a b faults issued, middle a b faults issued → Follows failures (f a) (f' b)
      fun c d faults' issued' => returned c d (faults ++ faults') (issued ++ issued')) :
    Follows failures (m >>= f) (m' >>= f') returned := by
  refine ⟨grows_bind hm.grows hgrows, fun p c hc hp p' => ?_⟩
  obtain ⟨more, hmore⟩ := hm.grows p
  rcases hfirst : m.after p with ⟨e | a, q⟩
  · rw [after_bind_of_error hfirst] at hc
    cases hc
  rw [after_bind_of_ok hfirst] at hc hp
  rw [hfirst] at hmore
  -- neither step reports anything
  obtain ⟨rest, hrest⟩ := hgrows a q
  have hnone : more = [] ∧ rest = [] := by
    rwa [hrest, show q.reports = _ from hmore, List.append_assoc, List.append_right_eq_self,
      List.append_eq_nil_iff] at hp
  obtain ⟨rfl, rfl⟩ := hnone
  rw [List.append_nil] at hmore hrest
  have hm' := hm.follows p a (congrArg Prod.fst hfirst)
    ((congrArg (fun r => r.2.reports) hfirst).trans hmore) p'
  obtain ⟨b, faults, issued, reports, hmiddle, hb, hreports, htells, hissued⟩ := hm'
  rcases hsecond : m'.after p' with ⟨e | b', q'⟩ <;> rw [hsecond] at hb hreports hissued
  · cases hb
  obtain rfl := Except.ok.inj hb
  have hf' := (hf a b' faults issued hmiddle).follows q c hc hrest q'
  obtain ⟨d, faults', issued', reports', hreturned, hd, hreports', htells', hissued'⟩ := hf'
  refine ⟨d, faults ++ faults', issued ++ issued', reports ++ reports', hreturned, ?_, ?_,
    List.rel_append htells htells', ?_⟩ <;> rw [after_bind_of_ok hsecond]
  · exact hd
  · rw [hreports', show q'.reports = _ from hreports, List.append_assoc]
  · rw [hissued', show q'.trace.executions = _ from hissued, List.append_assoc]

/-! ### Faults of fields -/

/-- What fails is reported or ends the request, so nothing needs to follow it. -/
theorem follows_isolate_error (type : TypeRef) (path : Path) (message : String) (m' : Execution β)
    (returned : Option Json → β → List (Path × Resolver C) → List (String × Statement) → Prop) :
    Follows failures (isolate type path (.error message)) m' returned := by
  refine ⟨grows_isolate type path _, fun p a ha hp => ?_⟩
  cases htype : type.nullable with
  | true =>
      rw [after_isolate_nullable htype, List.append_right_eq_self] at hp
      cases hp
  | false =>
      rw [after_isolate_nonNull htype] at ha
      cases ha

/-- What fails in the second execution only is null there, and reported. -/
theorem follows_isolate_failed {type : TypeRef} (htype : type.nullable) (path : Path) (v : Json)
    {resolver : Resolver C} {failure : List Statement → Statement → SourceFault}
    (hfailure : failures resolver = some failure) (history : List Statement) (s : Statement)
    {returned : Option Json → Option Json → List (Path × Resolver C) →
      List (String × Statement) → Prop}
    (h : returned v.fieldValue? none [(path, resolver)] []) :
    Follows failures (isolate type path (.ok v))
      (isolate type path (.error (Fault.source (failure history s)).message)) returned := by
  refine ⟨grows_isolate type path _, ?_⟩
  rintro p a ha - p'
  obtain rfl := Except.ok.inj ha
  refine ⟨none, _, [], _, h, ?_, by rw [after_isolate_nullable htype],
    .cons ⟨rfl, failure, hfailure, history, s, rfl⟩ .nil, ?_⟩
  · rw [after_isolate_nullable htype]
  · rw [after_isolate_nullable htype]
    exact (List.append_nil _).symm

end Execution

end RelaySql
