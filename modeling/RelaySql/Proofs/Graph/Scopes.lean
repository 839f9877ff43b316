import RelaySql.Proofs.Graph.Executed
import RelaySql.Proofs.Graph.Planned

/-!
# Execution — what a selection selects on

Looking ahead goes through a selection by the names of its fields, and execution by the types of its
values.  A scope tells what was loaded for the value that a selection selects on: it is a row, a page
of rows or an edge of such a page, or nothing was loaded for it.

* `Scope.below`: the scope of what is selected on the value of a field.
* `Schema.Reaches`: the selections that a request makes on values of object types.
* `Schema.Reaches.covers`: looking ahead at the fields of a scope sees all that is selected on its
  rows.
* `Schema.checkParts_iff`: what is demanded of every field that a request selects can be checked.
-/

namespace RelaySql

/-- The reference is to a list. -/
def TypeRef.isList : TypeRef → Bool
  | named _ => false
  | list _ => true
  | nonNull type => type.isList

/-- What was loaded for a value that is selected on. -/
inductive Scope (C : Type) where
  /-- It is a row with these fields registered for it, and selected on by fields at these places. -/
  | rows (nested : List (String × NestedField C)) (positions : List SelectedField)
  /-- It is a page of such rows. -/
  | page (nested : List (String × NestedField C)) (positions : List SelectedField)
  /-- It is an edge of such a page. -/
  | edge (nested : List (String × NestedField C)) (positions : List SelectedField)
  | other

variable {C : Type}

namespace Scope

/-- The scope of the value of a field with a resolver. -/
def served (single paginated : Bool) (nested : List (String × NestedField C))
    (positions : List SelectedField) : Scope C :=
  if !single && paginated then page nested positions else rows nested positions

/-- The nested field that is registered for a field selected in the scope. -/
def registered? : Scope C → SelectedField → Option (NestedField C)
  | rows nested _, f => Fields.get? nested f.name
  | _, _ => none

/-- The nested field that a field selected in the scope is loaded as: the one that is registered for
it, if looking ahead sees its response key. -/
def loaded? : Scope C → SelectedField → Option (NestedField C)
  | rows nested positions, f =>
    if Load.occurring nested positions f.key = [] then none else Fields.get? nested f.name
  | _, _ => none

/-- The fields that are loaded together with a field selected in the scope. -/
def occurrences : Scope C → SelectedField → List SelectedField
  | rows nested positions, f => Load.occurring nested positions f.key
  | _, _ => []

/-- The scope of what is selected on the value of a nested field. -/
def belowNested (occurrences : List SelectedField) : NestedField C → Scope C
  | .mk _ single resolver nested =>
    served single resolver.paginated nested (rowFields resolver.paginated occurrences)

/-- The scope of what is selected on the value of a field with a resolver. -/
def belowRoot (r : FieldResolver C) (f : SelectedField) : Scope C :=
  served false r.resolver.paginated r.nested (rowFields r.resolver.paginated [f])

/-- The scope of what is selected on the value of a column. -/
def belowColumn : Scope C → String → Scope C
  | page nested positions, name => if name = "edges" then edge nested positions else other
  | edge nested positions, name => if name = "node" then rows nested positions else other
  | _, _ => other

/-- The scope of what is selected on the value of a field. -/
def below (scope : Scope C) (d : FieldDef C) (f : SelectedField) : Scope C :=
  match d.kind with
  | .root r => belowRoot r f
  | .nested => ((scope.loaded? f).map (belowNested (scope.occurrences f))).getD other
  | .column => scope.belowColumn d.name

theorem below_of_root (scope : Scope C) {d : FieldDef C} {r : FieldResolver C}
    (h : d.kind = .root r) (f : SelectedField) : scope.below d f = belowRoot r f := by
  rw [below, h]

theorem below_of_nested (scope : Scope C) {d : FieldDef C} (h : d.kind = .nested)
    (f : SelectedField) :
    scope.below d f = ((scope.loaded? f).map (belowNested (scope.occurrences f))).getD other := by
  rw [below, h]

theorem below_of_column (scope : Scope C) {d : FieldDef C} (h : d.kind = .column)
    (f : SelectedField) : scope.below d f = scope.belowColumn d.name := by
  rw [below, h]

/-- Looking ahead at the fields of a scope sees what is selected on its rows. -/
def Covers (selected : List SelectedField) : Scope C → Prop
  | rows _ positions => ∀ f ∈ selected, f ∈ positions.flatMap SelectedField.children
  | page _ positions => ∀ e ∈ selected, e.name = "edges" →
      ∀ n ∈ e.children, n.name = "node" → n ∈ positions
  | edge _ positions => ∀ n ∈ selected, n.name = "node" → n ∈ positions
  | other => True

end Scope

namespace ObjectType

/-- The field of an object that a selected field is resolved as. -/
def resolved? (type : ObjectType C) (f : SelectedField) : Option (FieldDef C) :=
  if f.name = "__typename" then none else type.field? f.name

theorem mem_of_resolved? {type : ObjectType C} {f : SelectedField} {d : FieldDef C}
    (h : type.resolved? f = some d) : d ∈ type.fields := by
  simp only [resolved?, field?] at h
  split at h
  · cases h
  · exact List.mem_of_find?_eq_some h

theorem name_of_resolved? {type : ObjectType C} {f : SelectedField} {d : FieldDef C}
    (h : type.resolved? f = some d) : d.name = f.name := by
  simp only [resolved?, field?] at h
  split at h
  · cases h
  · simpa using List.find?_some h

end ObjectType

namespace Schema

/-- The selections that a request makes on values of object types, with their scopes. -/
inductive Reaches (s : Schema C) (request : List Selection) :
    Scope C → ObjectType C → List Selection → Prop where
  | root : Reaches s request .other s.root request
  | inside {scope : Scope C} {type type' : ObjectType C} {selections : List Selection}
      {f : SelectedField} {d : FieldDef C} (h : Reaches s request scope type selections)
      (hf : f ∈ fieldsOf selections) (hd : type.resolved? f = some d)
      (htype : s.object? d.type.base = some type') :
      Reaches s request (scope.below d f) type' f.selections

/-- The fields of the schema that a request selects, with the scopes they are selected in. -/
def Selects (s : Schema C) (request : List Selection) (scope : Scope C) (f : SelectedField)
    (d : FieldDef C) : Prop :=
  ∃ type selections, s.Reaches request scope type selections ∧ f ∈ fieldsOf selections ∧
    type.resolved? f = some d

/-- No response key denotes two different nested fields on the same rows. -/
def Unambiguous (s : Schema C) (request : List Selection) : Prop :=
  ∀ nested positions f d, s.Selects request (.rows nested positions) f d → d.kind = .nested →
    ∀ g ∈ Load.occurring nested positions f.key, g.name = f.name

/-- The resolver of a single row is plain. -/
def SinglesPlain (s : Schema C) (request : List Selection) : Prop :=
  ∀ scope f d, s.Selects request scope f d → d.kind = .nested →
    ∀ column resolver nested, scope.registered? f = some (.mk column true resolver nested) →
      resolver.paginated = false

end Schema

/-! ### The resolvers of a schema -/

/-- The resolvers of nested fields, and those below their rows. -/
inductive NestedField.Uses : List (String × NestedField C) → Resolver C → Prop where
  | own {nested below : List (String × NestedField C)} {name column : String} {single : Bool}
      {resolver : Resolver C} (h : (name, .mk column single resolver below) ∈ nested) :
      Uses nested resolver
  | deeper {nested below : List (String × NestedField C)} {name column : String} {single : Bool}
      {resolver used : Resolver C} (h : (name, .mk column single resolver below) ∈ nested)
      (hused : Uses below used) : Uses nested used

@[simp] theorem NestedField.not_uses_nil (used : Resolver C) : ¬ Uses [] used := by
  intro h
  cases h <;> contradiction

@[simp] theorem NestedField.uses_cons {name column : String} {single : Bool} {resolver : Resolver C}
    {below rest : List (String × NestedField C)} {used : Resolver C} :
    Uses ((name, .mk column single resolver below) :: rest) used ↔
      used = resolver ∨ Uses below used ∨ Uses rest used := by
  constructor
  · intro h
    cases h with
    | own h =>
        rcases List.mem_cons.mp h with h | h
        · cases h
          exact .inl rfl
        · exact .inr (.inr (.own h))
    | deeper h hused =>
        rcases List.mem_cons.mp h with h | h
        · cases h
          exact .inr (.inl hused)
        · exact .inr (.inr (.deeper h hused))
  · rintro (rfl | h | h)
    · exact .own List.mem_cons_self
    · exact .deeper List.mem_cons_self h
    · cases h with
      | own h => exact .own (List.mem_cons_of_mem _ h)
      | deeper h hused => exact .deeper (List.mem_cons_of_mem _ h) hused

/-- The resolver of a field, and those below its rows. -/
def FieldResolver.Uses (r : FieldResolver C) (used : Resolver C) : Prop :=
  used = r.resolver ∨ NestedField.Uses r.nested used

/-- The resolvers of a schema. -/
def Schema.Uses (s : Schema C) (used : Resolver C) : Prop :=
  ∃ t ∈ s.objects.values, ∃ d ∈ t.fields, ∃ r, d.kind = .root r ∧ r.Uses used

namespace Schema

variable {s : Schema C} {request : List Selection}

theorem mem_values_of_object? {name : String} {type : ObjectType C}
    (h : s.object? name = some type) : type ∈ s.objects.values :=
  List.mem_map_of_mem (Fields.mem_of_get? h)

/-- What a request selects is a field of the schema. -/
theorem Selects.mem_fields {scope : Scope C} {f : SelectedField} {d : FieldDef C}
    (h : s.Selects request scope f d) : ∃ t ∈ s.objects.values, d ∈ t.fields := by
  obtain ⟨type, selections, hreaches, -, hd⟩ := h
  have hm := ObjectType.mem_of_resolved? hd
  cases hreaches with
  | root =>
      cases hroot : s.object? rootType with
      | none =>
          rw [root, hroot] at hm
          cases hm
      | some type =>
          rw [root, hroot] at hm
          exact ⟨type, mem_values_of_object? hroot, hm⟩
  | inside _ _ _ htype => exact ⟨type, mem_values_of_object? htype, hm⟩

/-- The resolver of a field that a request selects, and those below its rows, are in the schema. -/
theorem Selects.uses {scope : Scope C} {f : SelectedField} {d : FieldDef C}
    (h : s.Selects request scope f d) {r : FieldResolver C} (hkind : d.kind = .root r)
    {used : Resolver C} (hused : r.Uses used) : s.Uses used := by
  obtain ⟨t, ht, hd⟩ := h.mem_fields
  exact ⟨t, ht, d, hd, r, hkind, hused⟩

end Schema

/-! ### Looking ahead and selecting agree -/

theorem mem_rowFields_of_page {f e n : SelectedField} {fields : List SelectedField}
    (h : f ∈ fields) (he : e ∈ f.children) (hedges : e.name = "edges") (hn : n ∈ e.children)
    (hnode : n.name = "node") : n ∈ rowFields true fields := by
  simp only [rowFields, if_true, List.mem_filter, List.mem_flatMap, decide_eq_true_eq]
  exact ⟨⟨e, ⟨⟨f, h, he⟩, hedges⟩, hn⟩, hnode⟩

namespace Scope

/-- What is selected on the value of one of the fields that are served together. -/
theorem covers_served {single paginated : Bool} (hsingle : single = true → paginated = false)
    (nested : List (String × NestedField C)) {fields : List SelectedField} {f : SelectedField}
    (h : f ∈ fields) :
    (served single paginated nested (rowFields paginated fields)).Covers f.children := by
  cases paginated with
  | false =>
      have hrows : served single false nested (rowFields false fields) = rows nested fields := by
        cases single <;> rfl
      rw [hrows]
      exact fun g hg => List.mem_flatMap.mpr ⟨f, h, hg⟩
  | true =>
      cases single with
      | true => cases hsingle rfl
      | false => exact fun e he hedges n hn hnode => mem_rowFields_of_page h he hedges hn hnode

theorem mem_occurrences {scope : Scope C} {selected : List SelectedField}
    (hcovers : scope.Covers selected) {f : SelectedField} (hf : f ∈ selected)
    (hregistered : (scope.registered? f).isSome) : f ∈ scope.occurrences f := by
  cases scope with
  | rows nested positions => exact Load.mem_occurring.mpr ⟨hcovers f hf, rfl, hregistered⟩
  | page | edge | other => cases hregistered

/-- A nested field that is registered is loaded, if looking ahead sees it. -/
theorem loaded?_eq_registered? {scope : Scope C} {f : SelectedField}
    (h : f ∈ scope.occurrences f) : scope.loaded? f = scope.registered? f := by
  cases scope with
  | rows nested positions => exact if_neg (List.ne_nil_of_mem h)
  | page | edge | other => rfl

theorem registered?_of_loaded? {scope : Scope C} {f : SelectedField} {n : NestedField C}
    (h : scope.loaded? f = some n) : scope.registered? f = some n := by
  cases scope with
  | rows nested positions =>
      simp only [loaded?] at h
      split at h
      · cases h
      · exact h
  | page | edge | other => cases h

end Scope

namespace Schema

/-- **Looking ahead sees all that is selected on rows.** -/
theorem Reaches.covers {s : Schema C} {request : List Selection} (hsingle : s.SinglesPlain request)
    {scope : Scope C} {type : ObjectType C} {selections : List Selection}
    (h : s.Reaches request scope type selections) : scope.Covers (fieldsOf selections) := by
  induction h with
  | root => trivial
  | @inside scope type type' selections f d h hf hd htype ih =>
      cases hkind : d.kind with
      | root r =>
          rw [Scope.below_of_root _ hkind]
          exact Scope.covers_served (fun h => by cases h) r.nested (List.mem_singleton_self f)
      | nested =>
          rw [Scope.below_of_nested _ hkind]
          cases hloaded : scope.loaded? f with
          | none => trivial
          | some n =>
              have hregistered := Scope.registered?_of_loaded? hloaded
              obtain ⟨column, single, resolver, below⟩ := n
              refine Scope.covers_served (fun hs => ?_) below
                (Scope.mem_occurrences ih hf (Option.isSome_of_eq_some hregistered))
              subst hs
              exact hsingle scope f d ⟨type, selections, h, hf, hd⟩ hkind column resolver below
                hregistered
      | column =>
          have hname := ObjectType.name_of_resolved? hd
          rw [Scope.below_of_column _ hkind]
          cases scope with
          | rows | other => trivial
          | page nested positions =>
              simp only [Scope.belowColumn]
              split
              · next hedges => exact ih f hf (hname ▸ hedges)
              · trivial
          | edge nested positions =>
              simp only [Scope.belowColumn]
              split
              · next hnode =>
                  exact fun g hg => List.mem_flatMap.mpr ⟨f, ih f hf (hname ▸ hnode), hg⟩
              · trivial

end Schema

/-! ### Checking what a request selects -/

namespace Schema

variable (s : Schema C) (accepts : Scope C → SelectedField → FieldDef C → Bool)

mutual

/-- A part of a selection on a value of this scope and type selects accepted fields only, also on
the values of its fields. -/
def checkPart (scope : Scope C) (type : ObjectType C) : Selection → Bool
  | .fragment _ selections => checkParts scope type selections
  | .field key name arguments selections =>
    let f : SelectedField := ⟨key, name, arguments, selections⟩
    match type.resolved? f with
    | none => true
    | some d => accepts scope f d &&
      match s.object? d.type.base with
      | none => true
      | some type' => checkParts (scope.below d f) type' selections

def checkParts (scope : Scope C) (type : ObjectType C) : List Selection → Bool
  | [] => true
  | selection :: rest => checkPart scope type selection && checkParts scope type rest

end

variable {s} {accepts}

/-- What a checked selection selects is accepted, and what is selected on it is checked. -/
theorem accepts_of_checkParts {scope : Scope C} {type : ObjectType C} :
    ∀ {selections : List Selection}, s.checkParts accepts scope type selections →
      ∀ f ∈ fieldsOf selections, ∀ d, type.resolved? f = some d → accepts scope f d ∧
        ∀ type', s.object? d.type.base = some type' →
          s.checkParts accepts (scope.below d f) type' f.selections
  | [], _ => fun f hf => nomatch hf
  | .fragment on inner :: rest, h => by
      simp only [checkParts, checkPart, Bool.and_eq_true] at h
      exact List.forall_mem_append.mpr ⟨accepts_of_checkParts h.1, accepts_of_checkParts h.2⟩
  | .field key name arguments inner :: rest, h => by
      simp only [checkParts, checkPart, Bool.and_eq_true] at h
      refine List.forall_mem_cons.mpr ⟨fun d hd => ?_, accepts_of_checkParts h.2⟩
      obtain ⟨hown, hinner⟩ := (Bool.and_eq_true _ _).mp (by simpa only [hd] using h.1)
      exact ⟨hown, fun type' htype => by simpa only [htype] using hinner⟩

/-- A selection that a request makes is checked when all that the request selects is accepted. -/
theorem checkParts_of_accepts {request : List Selection}
    (h : ∀ scope f d, s.Selects request scope f d → accepts scope f d)
    {scope : Scope C} {type : ObjectType C} {selections : List Selection}
    (hreaches : s.Reaches request scope type selections) :
    ∀ inner : List Selection, (∀ f ∈ fieldsOf inner, f ∈ fieldsOf selections) →
      s.checkParts accepts scope type inner
  | [], _ => rfl
  | selection :: rest, hsub => by
      obtain ⟨hfirst, hrest⟩ := List.forall_mem_append.mp hsub
      refine (Bool.and_eq_true _ _).mpr ⟨?_, checkParts_of_accepts h hreaches rest hrest⟩
      cases selection with
      | fragment on inner => exact checkParts_of_accepts h hreaches inner hfirst
      | field key name arguments inner =>
          have hf := hfirst ⟨key, name, arguments, inner⟩ (List.mem_singleton_self _)
          simp only [checkPart]
          split
          · rfl
          next d hd =>
          refine (Bool.and_eq_true _ _).mpr ⟨h _ _ _ ⟨type, selections, hreaches, hf, hd⟩, ?_⟩
          split
          · rfl
          next type' htype =>
          exact checkParts_of_accepts h (hreaches.inside hf hd htype) inner fun g hg => hg

/-- **A request can be checked**: going through it once tells whether all that it selects is
accepted. -/
theorem checkParts_iff {request : List Selection} :
    s.checkParts accepts .other s.root request ↔
      ∀ scope f d, s.Selects request scope f d → accepts scope f d := by
  constructor
  · rintro h scope f d ⟨type, selections, hreaches, hf, hd⟩
    suffices s.checkParts accepts scope type selections from
      (accepts_of_checkParts this f hf d hd).1
    induction hreaches generalizing f d with
    | root => exact h
    | inside _ hf' hd' htype ih =>
        exact (accepts_of_checkParts (ih _ _ hf' hd') _ hf' _ hd').2 _ htype
  · exact fun h => checkParts_of_accepts h .root request fun f hf => hf

end Schema

end RelaySql
