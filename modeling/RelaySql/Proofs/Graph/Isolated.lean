import RelaySql.Proofs.Graph.Covered
import RelaySql.Proofs.Graph.Follows
import RelaySql.Proofs.Graph.Valid

/-!
# Execution — a failing field nulls only itself

A request that reports nothing is executed again with some sources failing.  The second execution
goes the same way, field by field; where a field is served from a source that fails, the field is
null and its fault is reported, and nothing is executed below it.

* `Execution.follows_fieldValue`: the value of a field, in both executions.
* `Execution.follows_answerParts`: a selection, in both executions.
* `Schema.execute_failing`: the response where some sources fail.
-/

namespace RelaySql

namespace Execution

variable {C : Type} {failures : Failures C}

/-! ### The values of fields -/

/-- **A field with a resolver**: it fails with the fault of its source, if that is one of those that
fail, and otherwise has a value of the same shape. -/
theorem follows_rootValue {context : Option C} {r : FieldResolver C} (hstateless : r.Stateless)
    (f : SelectedField) :
    Follows failures (rootValue context r f) (rootValue context (r.failing failures) f)
      fun value value' faults issued => faults = [] ∧
        issued = Server.statements failures context (some (.field r f)) ∧
        ∀ v, value = .ok v →
          (∃ failure, failures r.resolver = some failure ∧ ∃ history s,
            value' = .error (Fault.source (failure history s)).message) ∨
          failures r.resolver = none ∧ ∃ c ∈ context, ∃ v', value' = .ok v' ∧
            ServedBeside c failures false r.resolver.paginated r.nested
              (rowFields r.resolver.paginated [f]) v v' := by
  cases context with
  | none => exact follows_pure ⟨rfl, rfl, fun v hv => nomatch hv⟩
  | some c =>
      refine ⟨grows_rootValue _ _ _, ?_⟩
      rintro p a ha - p'
      rw [after_rootValue] at ha
      obtain rfl := Except.ok.inj ha
      rw [after_rootValue]
      refine ⟨_, [], r.sparedStatements c f failures, [], ⟨rfl, rfl, fun v hv => ?_⟩, rfl,
        (List.append_nil _).symm, .nil, FieldResolver.executions_failing hstateless p'.trace⟩
      rcases hload : ((r.load c f).after p.trace).1 with e | value
      · rw [hload] at hv
        cases hv
      rw [hload] at hv
      obtain rfl := Except.ok.inj hv
      obtain ⟨failure, hfailure, history, s, hfailed⟩ | ⟨hnone, value', hvalue', hbeside⟩ :=
        FieldResolver.load_failing hstateless hload p'.trace
      · refine .inl ⟨failure, hfailure, history, s, ?_⟩
        rw [hfailed]
        rfl
      · refine .inr ⟨hnone, c, rfl, _, ?_, hbeside⟩
        rw [hvalue']
        rfl

/-- The value of a field, where sources fail: it is null and its fault reported if it is served from
one of these, and otherwise it is beside the value in the scope below. -/
def FieldFollows (failures : Failures C) (context : Option C) (scope : Scope C) (d : FieldDef C)
    (f : SelectedField) (path : Path) (found found' : Option Json)
    (faults : List (Path × Resolver C)) (issued : List (String × Statement)) : Prop :=
  issued = Server.statements failures context (scope.server? d f) ∧
    if Server.fails failures (scope.server? d f) then found' = none ∧
      faults = (scope.server? d f).toList.map fun server => (path, server.resolver)
    else Option.Rel ((scope.below d f).Beside context failures) found found' ∧ faults = []

section

variable {context : Option C} {scope : Scope C} {d : FieldDef C} {f : SelectedField} {path : Path}
  {found found' : Option Json} {server : Server C}

theorem fieldFollows_of_some (hserver : scope.server? d f = some server)
    (hsome : (failures server.resolver).isSome) {issued : List (String × Statement)}
    (hissued : issued = Server.statements failures context (some server)) :
    FieldFollows failures context scope d f path found none [(path, server.resolver)] issued := by
  rw [FieldFollows, hserver, Server.fails, if_pos hsome]
  exact ⟨hissued, rfl, rfl⟩

theorem fieldFollows_of_none (hserver : scope.server? d f = some server)
    (hnone : failures server.resolver = none) {issued : List (String × Statement)}
    (hissued : issued = Server.statements failures context (some server))
    (h : Option.Rel ((scope.below d f).Beside context failures) found found') :
    FieldFollows failures context scope d f path found found' [] issued := by
  rw [FieldFollows, hserver, Server.fails, hnone]
  exact ⟨hissued, h, rfl⟩

theorem fieldFollows_of_unserved (hserver : scope.server? d f = none)
    (h : Option.Rel ((scope.below d f).Beside context failures) found found') :
    FieldFollows failures context scope d f path found found' [] [] := by
  rw [FieldFollows, hserver]
  exact ⟨rfl, h, rfl⟩

end

section

variable {context : Option C} {scope : Scope C} {d : FieldDef C} {f : SelectedField}
  {parent parent' : Json}

/-- The value of a field with a resolver, in both executions. -/
theorem follows_root {r : FieldResolver C} (hkind : d.kind = .root r) (hstateless : r.Stateless)
    (hnullable : Server.fails failures (scope.server? d f) → d.type.nullable) (path : Path) :
    Follows failures (fieldValue context d parent path f)
      (fieldValue context { d with kind := d.kind.failing failures } parent' path f)
      (FieldFollows failures context scope d f path) := by
  have hserver := Scope.server?_of_root scope hkind f
  have hbelow := Scope.below_of_root scope hkind f
  simp only [fieldValue, hkind, FieldKind.failing]
  refine follows_bind (follows_rootValue hstateless f) (fun _ => grows_isolate _ _ _)
    fun value value' faults issued h => ?_
  obtain ⟨rfl, rfl, hvalue⟩ := h
  cases value with
  | error message => exact follows_isolate_error _ _ _ _ _
  | ok v =>
      obtain ⟨failure, hfailure, history, s, rfl⟩ | ⟨hnone, c, hc, v', rfl, hbeside⟩ := hvalue v rfl
      · have hsome := Option.isSome_of_eq_some hfailure
        refine follows_isolate_failed (hnullable (hserver ▸ hsome)) path v hfailure history s ?_
        exact fieldFollows_of_some hserver hsome (List.append_nil _)
      · refine follows_pure (fieldFollows_of_none hserver hnone (List.append_nil _) ?_)
        rw [hbelow]
        exact Scope.beside_served hc hbeside

/-- The value of a nested field, in both executions. -/
theorem follows_nested (hkind : d.kind = .nested)
    (hnames : ∀ g ∈ scope.occurrences f, g.name = f.name)
    (hnullable : Server.fails failures (scope.server? d f) → d.type.nullable)
    (hparent : scope.Beside context failures parent parent') (path : Path) :
    Follows failures (fieldValue context d parent path f)
      (fieldValue context { d with kind := d.kind.failing failures } parent' path f)
      (FieldFollows failures context scope d f path) := by
  have hserver := Scope.server?_of_nested scope hkind f
  have hbelow := Scope.below_of_nested scope hkind f
  simp only [fieldValue, hkind, FieldKind.failing]
  cases hv : loadedValue parent f.key with
  | error message => exact follows_isolate_error _ _ _ _ _
  | ok v =>
      have hread := Scope.beside_nested hnames hparent hv
      generalize loadedValue parent' f.key = read at hread
      cases hread with
      | unloaded hloaded =>
          rw [hloaded] at hserver hbelow
          refine follows_pure (fieldFollows_of_unserved hserver ?_)
          rw [hbelow]
          exact Scope.rel_beside_other _
      | failed hloaded hfailure history s =>
          rw [hloaded] at hserver
          have hsome := Option.isSome_of_eq_some hfailure
          refine follows_isolate_failed (hnullable (hserver ▸ hsome)) path v hfailure history s ?_
          exact fieldFollows_of_some hserver hsome rfl
      | loaded hloaded hnone hbeside =>
          rw [hloaded] at hserver hbelow
          refine follows_pure (fieldFollows_of_none hserver hnone rfl ?_)
          rw [hbelow]
          exact hbeside

/-- The value of a column, in both executions. -/
theorem follows_column (hkind : d.kind = .column) (hordinary : IsOrdinary d.name)
    (hparent : scope.Beside context failures parent parent') (path : Path) :
    Follows failures (fieldValue context d parent path f)
      (fieldValue context { d with kind := d.kind.failing failures } parent' path f)
      (FieldFollows failures context scope d f path) := by
  have hserver := Scope.server?_of_column scope hkind f
  have hbelow := Scope.below_of_column scope hkind f
  simp only [fieldValue, hkind, FieldKind.failing]
  refine follows_pure (fieldFollows_of_unserved hserver ?_)
  rw [hbelow]
  exact Scope.beside_column hordinary hparent

end

/-! ### Completing a value -/

/-- The data, the faults and the statements of an answer. -/
def ComesTo (failures : Failures C) (context : Option C) (path : Path) (answer : Answer C)
    (v : Json) (faults : List (Path × Resolver C)) (issued : List (String × Statement)) : Prop :=
  v = answer.json failures ∧ faults = answer.faults failures path ∧
    issued = answer.statements failures context

/-- The data, the faults and the statements of the fields of an object. -/
def FieldsComeTo (failures : Failures C) (context : Option C) (path : Path)
    (fields : List (AnsweredField C)) (values : List (String × Json))
    (faults : List (Path × Resolver C)) (issued : List (String × Statement)) : Prop :=
  values = AnsweredField.members failures fields ∧
    faults = AnsweredField.faults failures path fields ∧
    issued = AnsweredField.statements failures context fields

theorem follows_eachItem {context : Option C} {item : Json → Path → Execution (Answer C)}
    {item' : Json → Path → Execution Json} {items items' : List Json} (path : Path)
    (hgrows : ∀ v path, Grows (item v path))
    (h : List.Forall₂ (fun v v' => ∀ path,
      Follows failures (item v path) (item' v' path) (ComesTo failures context path)) items items')
    (start : Nat) :
    Follows failures (eachItem item path start items) (completeItems item' path start items')
      fun answers values faults issued => values = Answer.jsonItems failures answers ∧
        faults = Answer.faultsFrom failures path start answers ∧
        issued = Answer.statementsOf failures context answers := by
  induction h generalizing start with
  | nil => exact follows_pure ⟨rfl, rfl, rfl⟩
  | cons hfirst hrest ih =>
      refine follows_bind (hfirst _) (fun _ => grows_bind (grows_eachItem hgrows _ _ _)
        fun _ => grows_pure _) fun answer v faults issued hanswer => ?_
      refine follows_bind (ih (start + 1)) (fun _ => grows_pure _)
        fun answers values faults' issued' hanswers => ?_
      obtain ⟨rfl, rfl, rfl⟩ := hanswer
      obtain ⟨rfl, rfl, rfl⟩ := hanswers
      refine follows_pure ⟨rfl, ?_, ?_⟩
      · rw [List.append_nil]; rfl
      · rw [List.append_nil]; rfl

/-- **Completing a value** whose values of object types are answered in both executions. -/
theorem follows_answerValue {s : Schema C} {context : Option C} {scope : Scope C}
    {object : ObjectType C → Json → Path → Execution (Answer C)}
    {object' : ObjectType C → Json → Path → Execution Json}
    (hgrows : ∀ type v path, Grows (object type v path)) {type : TypeRef}
    (hobject : ∀ inner, s.object? type.base = some inner → ∀ v v' path,
      scope.Beside context failures v v' →
      Follows failures (object inner v path) (object' (inner.failing failures) v' path)
        (ComesTo failures context path))
    (hleaf : s.object? type.base = none → scope.selected = []) {v v' : Option Json}
    (h : Option.Rel (scope.Beside context failures) v v') (path : Path) :
    Follows failures (answerValue s object type v path)
      (complete (s.failing failures) object' type v' path) (ComesTo failures context path) := by
  induction type generalizing v v' path with
  | nonNull type ih =>
      cases h with
      | none => exact follows_throw _ _ _
      | some h => exact ih hobject hleaf (.some h) path
  | list item ih =>
      cases h with
      | none => exact follows_pure ⟨rfl, rfl, rfl⟩
      | @some v v' h =>
          cases v with
          | null | boolean | number | string | object => exact follows_throw _ _ _
          | array items =>
              obtain ⟨items', rfl, hitems⟩ := Scope.items_beside h
              have heach : List.Forall₂ (fun v v' => ∀ path, Follows failures
                  (answerValue s object item (some v) path)
                  (complete (s.failing failures) object' item (some v') path)
                  (ComesTo failures context path)) items items' :=
                hitems.imp fun _ _ hv path => ih hobject hleaf (.some hv) path
              refine follows_bind (follows_eachItem path
                (fun v path => grows_answerValue s hgrows item (some v) path) heach 0)
                (fun _ => grows_pure _) fun answers values faults issued hanswers => ?_
              obtain ⟨rfl, rfl, rfl⟩ := hanswers
              exact follows_pure ⟨rfl, List.append_nil _, List.append_nil _⟩
  | named name =>
      cases h with
      | none => exact follows_pure ⟨rfl, rfl, rfl⟩
      | @some v v' h =>
          simp only [answerValue, complete, Schema.object?_failing]
          cases hname : s.object? name with
          | some inner => exact hobject inner hname v v' path h
          | none =>
              obtain rfl := Scope.eq_of_beside (hleaf hname) h
              cases v with
              | array items => exact follows_throw _ _ _
              | null | boolean | number | string | object => exact follows_pure ⟨rfl, rfl, rfl⟩

end Execution

/-! ### Requests that are executed twice -/

namespace Execution

variable {C : Type} {s : Schema C} {request : List Selection} {context : Option C}
  {failures : Failures C} (hvalid : s.Valid request) (hstateless : s.Stateless)
  (hnullable : s.NullableWhere request failures)

/-- What is null is completed to null. -/
theorem complete_none {object : ObjectType C → Json → Path → Execution Json} {type : TypeRef}
    (htype : type.nullable) (path : Path) : complete s object type none path = pure .null := by
  cases type with
  | nonNull type => cases htype
  | list item => rfl
  | named name => rfl

include hvalid hstateless hnullable

/-- **The value of a field** that is selected on values beside each other. -/
theorem follows_fieldValue {scope : Scope C} {f : SelectedField} {d : FieldDef C}
    (hselects : s.Selects request scope f d) {parent parent' : Json}
    (hparent : scope.Beside context failures parent parent') (path : Path) :
    Follows failures (fieldValue context d parent path f)
      (fieldValue context { d with kind := d.kind.failing failures } parent' path f)
      (FieldFollows failures context scope d f path) := by
  have hnull := hnullable scope f d hselects
  cases hkind : d.kind with
  | root r =>
      have hsources : r.Stateless := fun used hused => hstateless used (hselects.uses hkind hused)
      exact hkind ▸ follows_root hkind hsources hnull path
  | nested =>
      have hnames : ∀ g ∈ scope.occurrences f, g.name = f.name := by
        cases scope with
        | rows nested positions => exact hvalid.unambiguous nested positions f d hselects hkind
        | page | edge | other => exact fun g hg => nomatch hg
      exact hkind ▸ follows_nested hkind hnames hnull hparent path
  | column =>
      exact hkind ▸ follows_column hkind (hvalid.names scope f d hselects hkind) hparent path

/-- **A field** that is selected on values beside each other, with what is selected below it. -/
theorem follows_field {scope : Scope C} {f : SelectedField} {d : FieldDef C}
    (hselects : s.Selects request scope f d) {parent parent' : Json}
    (hparent : scope.Beside context failures parent parent') (path : Path)
    {object : ObjectType C → Json → Path → Execution (Answer C)}
    {object' : ObjectType C → Json → Path → Execution Json}
    (hgrows : ∀ type v path, Grows (object type v path))
    (hobject : ∀ type, s.object? d.type.base = some type → ∀ v v' path,
      (scope.below d f).Beside context failures v v' →
      Follows failures (object type v path) (object' (type.failing failures) v' path)
        (ComesTo failures context path)) :
    Follows failures
      (do
        let value ← fieldValue context d parent (path ++ [.key f.key]) f
        return [AnsweredField.mk f.key (scope.server? d f)
          (← answerValue s object d.type value (path ++ [.key f.key]))])
      (do
        let value ← fieldValue context { d with kind := d.kind.failing failures } parent'
          (path ++ [.key f.key]) f
        return [(f.key,
          ← complete (s.failing failures) object' d.type value (path ++ [.key f.key]))])
      (FieldsComeTo failures context path) := by
  refine follows_bind (follows_fieldValue hvalid hstateless hnullable hselects hparent _)
    (fun _ => grows_bind (grows_answerValue s hgrows _ _ _) fun _ => grows_pure _)
    fun found found' faults issued hfound => ?_
  obtain ⟨rfl, hfound⟩ := hfound
  by_cases hfails : Server.fails failures (scope.server? d f) = true
  · -- null, whatever is below it
    rw [if_pos hfails] at hfound
    obtain ⟨rfl, rfl⟩ := hfound
    rw [complete_none (hnullable scope f d hselects hfails)]
    have hnull : Follows failures (answerValue s object d.type found (path ++ [.key f.key]))
        (pure .null : Execution Json) fun _ v faults issued => v = .null ∧ faults = [] ∧ issued = [] :=
      follows_of_grows (grows_answerValue s hgrows d.type found (path ++ [.key f.key]))
        fun _ => ⟨rfl, rfl, rfl⟩
    refine follows_bind hnull (fun _ => grows_pure _) fun answer v faults issued h => ?_
    obtain ⟨rfl, rfl, rfl⟩ := h
    refine follows_pure ⟨?_, ?_, ?_⟩
    · rw [AnsweredField.members, if_pos hfails, AnsweredField.members]
    · rw [AnsweredField.faults, if_pos hfails, AnsweredField.faults]
      rfl
    · rw [AnsweredField.statements, if_pos hfails, AnsweredField.statements]
      simp only [List.append_nil]
  · rw [if_neg hfails] at hfound
    obtain ⟨hbeside, rfl⟩ := hfound
    refine follows_bind (follows_answerValue hgrows hobject (hvalid.leaves scope f d hselects)
      hbeside (path ++ [.key f.key])) (fun _ => grows_pure _) fun answer v faults issued h => ?_
    obtain ⟨rfl, rfl, rfl⟩ := h
    refine follows_pure ⟨?_, ?_, ?_⟩
    · rw [AnsweredField.members, if_neg hfails, AnsweredField.members]
    · rw [AnsweredField.faults, if_neg hfails, AnsweredField.faults]
      simp only [List.append_nil, List.nil_append]
    · rw [AnsweredField.statements, if_neg hfails, AnsweredField.statements]
      simp only [List.append_nil]

/-- **A selection** on values beside each other, in both executions. -/
theorem follows_answerParts {scope : Scope C} {type : ObjectType C} {selections : List Selection}
    (hreaches : s.Reaches request scope type selections) {parent parent' : Json}
    (hparent : scope.Beside context failures parent parent') (path : Path) :
    ∀ inner : List Selection, (∀ f ∈ fieldsOf inner, f ∈ fieldsOf selections) →
      Follows failures (answerParts s context scope type parent path inner)
        (parts (s.failing failures) context (type.failing failures) parent' path inner)
        (FieldsComeTo failures context path)
  | [], _ => follows_pure ⟨rfl, rfl, rfl⟩
  | selection :: rest, hsub => by
      obtain ⟨hfirst, hrest⟩ := List.forall_mem_append.mp hsub
      have hpart : Follows failures (answerPart s context scope type parent path selection)
          (part (s.failing failures) context (type.failing failures) parent' path selection)
          (FieldsComeTo failures context path) := by
        cases selection with
        | fragment on inner =>
            simp only [answerPart, part]
            have hname : (type.failing failures).name = type.name := rfl
            rw [hname]
            split
            · exact follows_answerParts hreaches hparent path inner hfirst
            · exact follows_pure ⟨rfl, rfl, rfl⟩
        | field key name arguments inner =>
            simp only [answerPart, part]
            split
            · exact follows_pure ⟨rfl, rfl, rfl⟩
            next hname =>
            rw [ObjectType.field?_failing]
            cases hfield : type.field? name with
            | none => exact follows_pure ⟨rfl, rfl, rfl⟩
            | some d =>
                have hf := hfirst ⟨key, name, arguments, inner⟩ (List.mem_singleton_self _)
                have hd : type.resolved? ⟨key, name, arguments, inner⟩ = some d :=
                  (if_neg hname).trans hfield
                have hselects : s.Selects request scope ⟨key, name, arguments, inner⟩ d :=
                  ⟨type, selections, hreaches, hf, hd⟩
                refine follows_field hvalid hstateless hnullable hselects hparent _
                  (fun _ _ _ => grows_bind (grows_answerParts _ _ _ _ _ _ _) fun _ => grows_pure _)
                  fun type' htype v v' path hv => ?_
                refine follows_bind (follows_answerParts (hreaches.inside hf hd htype) hv path inner
                  fun f hf => hf) (fun _ => grows_pure _) fun fields values faults issued h => ?_
                obtain ⟨rfl, rfl, rfl⟩ := h
                exact follows_pure ⟨rfl, List.append_nil _, List.append_nil _⟩
      refine follows_bind hpart (fun _ => grows_bind (grows_answerParts _ _ _ _ _ _ _)
        fun _ => grows_pure _) fun fields values faults issued hfields => ?_
      refine follows_bind (follows_answerParts hreaches hparent path rest hrest)
        (fun _ => grows_pure _) fun fields' values' faults' issued' hfields' => ?_
      obtain ⟨rfl, rfl, rfl⟩ := hfields
      obtain ⟨rfl, rfl, rfl⟩ := hfields'
      refine follows_pure ⟨(AnsweredField.members_append _ _ _).symm, ?_, ?_⟩
      · rw [List.append_nil, AnsweredField.faults_append]
      · rw [List.append_nil, AnsweredField.statements_append]

end Execution

namespace Schema

variable {C : Type}

theorem failing_none (s : Schema C) : s.failing .none = s := by
  have hkind : ∀ kind : FieldKind C, kind.failing .none = kind := by
    intro kind
    cases kind with
    | root r => exact congrArg FieldKind.root r.failing_none
    | nested | column => rfl
  have htype : ∀ t : ObjectType C, t.failing .none = t := by
    intro t
    simp only [ObjectType.failing, hkind, List.map_id']
  obtain ⟨objects⟩ := s
  simp only [failing, Fields.mapValues, htype, List.map_id']

/-- **A failing field nulls only itself.**  Of a request that reports nothing, some sources fail that
serve nullable fields only.  The data is then the same, but for these fields, which are null; the
statements are the same, but for those of fields below them; and each of these fields that is not
below another one is reported once, with the fault of its source, in its place. -/
theorem execute_failing (s : Schema C) (context : Option C) (request : List Selection)
    (failures : Failures C) (hvalid : s.Valid request) (hstateless : s.Stateless)
    (hnullable : s.NullableWhere request failures)
    (hreports : (s.execute context request).reports = []) :
    ∃ answer, s.answer context request = some answer ∧
      (s.execute context request).data = answer.json .none ∧
      ((s.failing failures).execute context request).data = answer.json failures ∧
      (s.execute context request).trace.executions = answer.statements .none context ∧
      ((s.failing failures).execute context request).trace.executions =
        answer.statements failures context ∧
      List.Forall₂ (Report.Tells failures) (answer.faults failures [])
        ((s.failing failures).execute context request).reports := by
  have hdata := s.execute_data context request
  rw [execute_eq, Execution.after_parts s context .other] at hreports
  simp only [answer] at hdata ⊢
  rcases hanswer : (Execution.answerParts s context .other s.root .null [] request).after {} with
    ⟨e | fields, q⟩ <;> rw [hanswer] at hreports
  · cases hreports
  rw [hanswer] at hdata
  -- the request, with any sources failing
  have hfollows : ∀ failures, s.NullableWhere request failures → ∃ q' : Progress,
      (Execution.parts (s.failing failures) context (s.failing failures).root .null []
        request).after {} = (.ok (AnsweredField.members failures fields), q') ∧
      q'.trace.executions = AnsweredField.statements failures context fields ∧
      List.Forall₂ (Report.Tells failures) (AnsweredField.faults failures [] fields) q'.reports := by
    intro failures hnullable
    have hparent : (Scope.other : Scope C).Beside context failures .null .null := .inl rfl
    have hroot := Execution.follows_answerParts hvalid hstateless hnullable .root hparent [] request
      fun f hf => hf
    obtain ⟨values, faults, issued, reports, ⟨rfl, rfl, rfl⟩, hvalues, hreports', htells, hissued⟩ :=
      hroot.follows {} fields (congrArg Prod.fst hanswer)
        ((congrArg (fun r => r.2.reports) hanswer).trans hreports) {}
    rw [root_failing]
    refine ⟨_, Prod.ext hvalues rfl, hissued, ?_⟩
    rw [hreports']
    exact htells
  obtain ⟨q', hrun, hissued, htells⟩ := hfollows failures hnullable
  obtain ⟨q₁, hrun₁, hissued₁, -⟩ := hfollows .none fun scope f d _ h => by
    rw [Server.fails_none] at h
    cases h
  rw [failing_none] at hrun₁
  refine ⟨.object fields, rfl, hdata, ?_, ?_, ?_, ?_⟩
  · rw [execute_eq, hrun]
    rfl
  · rw [execute_eq, hrun₁]
    exact hissued₁
  · rw [execute_eq, hrun]
    exact hissued
  · rw [execute_eq, hrun]
    exact htells

/-- The source of posts fails. -/
def withoutPosts : Failures Unit := fun r =>
  if r.table = "posts" then some fun _ _ => .rowDecode "posts" else none

theorem stateless_usersWithPosts : ofUsersWithPosts.Stateless := by
  have hvalues : ofUsersWithPosts.objects.values = [Graph.connectionObject "User",
      Graph.edgeObject "User",
      ⟨"Query", [⟨"users", .nonNull (.named "UserConnection"), .root usersWithPosts, []⟩]⟩,
      ⟨"User", [Graph.columnField "id" (.named "Int"),
        ⟨"posts", .list (.nonNull (.named "Post")), .nested, []⟩]⟩,
      ⟨"Post", [Graph.columnField "id" (.named "Int"), ⟨"author", .named "User", .nested, []⟩]⟩] :=
    rfl
  have hroot : ∀ t ∈ ofUsersWithPosts.objects.values, ∀ d ∈ t.fields, ∀ r, d.kind = .root r →
      r = usersWithPosts := by
    rw [hvalues]
    simp [Graph.connectionObject, Graph.edgeObject, Graph.columnField, eq_comm]
  rintro used ⟨t, ht, d, hd, r, hkind, hused⟩
  obtain rfl := hroot t ht d hd r hkind
  simp only [FieldResolver.Uses, usersWithPosts, NestedField.uses_cons, NestedField.not_uses_nil,
    or_false] at hused
  obtain rfl | rfl | rfl := hused <;> exact fun _ _ _ => rfl

/-- Without the posts, only they are null; they are selected twice and reported twice, and their
authors are not asked for. -/
theorem execute_failing_postsTwice : ∃ answer,
    ofUsersWithPosts.answer (some ()) postsTwice = some answer ∧
    ((ofUsersWithPosts.failing withoutPosts).execute (some ()) postsTwice).data =
      answer.json withoutPosts ∧
    (answer.json withoutPosts).text =
      "\x7b\"users\":\x7b\"a\":[\x7b\"b\":\x7b\"posts\":null\x7d\x7d]\x7d\x7d" ∧
    ((ofUsersWithPosts.failing withoutPosts).execute (some ()) postsTwice).reports.length = 2 ∧
    (ofUsersWithPosts.execute (some ()) postsTwice).trace.executions.map (·.2.table) =
      ["users", "posts", "users"] ∧
    ((ofUsersWithPosts.failing withoutPosts).execute (some ()) postsTwice).trace.executions.map
      (·.2.table) = ["users", "posts"] := by
  have hvalid : ofUsersWithPosts.Valid postsTwice := by decide +kernel
  have hnullable : ofUsersWithPosts.NullableWhere postsTwice withoutPosts := by decide +kernel
  have hreports : (ofUsersWithPosts.execute (some ()) postsTwice).reports = [] := by decide +kernel
  obtain ⟨answer, hanswer, -, hdata, -⟩ := execute_failing ofUsersWithPosts (some ()) postsTwice
    withoutPosts hvalid stateless_usersWithPosts hnullable hreports
  refine ⟨answer, hanswer, hdata, ?_, by decide +kernel, by decide +kernel, by decide +kernel⟩
  rw [← hdata]
  decide +kernel

end Schema

end RelaySql
