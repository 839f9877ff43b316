import RelaySql.Proofs.Graph.Beside

/-!
# Execution — requests that are valid

What a valid request may select is told of every field that it selects, with its scope, so going
through the request once checks it.

* `Schema.valid_iff`, `Schema.nullableWhere_iff`: what is demanded of a request can be checked.
* `Schema.Reaches.placed`: the fields that are loaded together are selected on values of one type.
* `Schema.valid_of_leaves`: a request is valid when fields without an object type have no selection.
-/

namespace RelaySql

namespace Schema

variable {C : Type}

/-- What holds of every request that is valid: its columns have ordinary names, nothing is selected
on the rows of a field whose type is no object type (`valid_of_leaves`), and no response key denotes
two different nested fields on the same rows. -/
structure Valid (s : Schema C) (request : List Selection) : Prop where
  names : ∀ scope f d, s.Selects request scope f d → d.kind = .column → IsOrdinary d.name
  leaves : ∀ scope f d, s.Selects request scope f d → s.object? d.type.base = none →
    (scope.below d f).selected = []
  unambiguous : s.Unambiguous request

/-- The sources of a schema answer every statement regardless of those before. -/
def Stateless (s : Schema C) : Prop := ∀ used, s.Uses used → used.source.Stateless

/-- The fields that are served from sources that fail allow null. -/
def NullableWhere (s : Schema C) (request : List Selection) (failures : Failures C) : Prop :=
  ∀ scope f d, s.Selects request scope f d → Server.fails failures (scope.server? d f) →
    d.type.nullable

/-! ### Checking requests -/

variable {s : Schema C} {request : List Selection} {failures : Failures C}

/-- What a valid request demands of a field that it selects. -/
def validAt (s : Schema C) (scope : Scope C) (f : SelectedField) (d : FieldDef C) : Bool :=
  ((s.object? d.type.base).isSome || (scope.below d f).selected.isEmpty) &&
    match d.kind with
    | .root _ => true
    | .nested => (scope.occurrences f).all (·.name = f.name)
    | .column => decide (IsOrdinary d.name)

/-- Whether a request is valid can be checked. -/
theorem valid_iff : s.Valid request ↔ s.checkParts s.validAt .other s.root request := by
  rw [checkParts_iff]
  constructor
  · intro h scope f d hselects
    refine (Bool.and_eq_true _ _).mpr ⟨?_, ?_⟩
    · cases htype : s.object? d.type.base with
      | some type => rfl
      | none => rw [h.leaves scope f d hselects htype]; rfl
    · cases hkind : d.kind with
      | root r => rfl
      | nested =>
          simp only [List.all_eq_true, decide_eq_true_eq]
          cases scope with
          | rows nested positions => exact h.unambiguous nested positions f d hselects hkind
          | page | edge | other => exact fun g hg => nomatch hg
      | column => exact decide_eq_true (h.names scope f d hselects hkind)
  · intro h
    have hat : ∀ scope f d, s.Selects request scope f d → _ ∧ _ :=
      fun scope f d hselects => (Bool.and_eq_true _ _).mp (h scope f d hselects)
    refine ⟨fun scope f d hselects hkind => ?_, fun scope f d hselects htype => ?_,
      fun nested positions f d hselects hkind => ?_⟩
    · have hname := (hat scope f d hselects).2
      rw [hkind] at hname
      exact of_decide_eq_true hname
    · have hleaf := (hat scope f d hselects).1
      rw [htype] at hleaf
      exact List.isEmpty_iff.mp hleaf
    · have hnames := (hat _ f d hselects).2
      rw [hkind] at hnames
      simp only [List.all_eq_true, decide_eq_true_eq] at hnames
      exact hnames

instance : Decidable (s.Valid request) := decidable_of_iff _ valid_iff.symm

theorem nullableWhere_iff : s.NullableWhere request failures ↔ s.checkParts
    (fun scope f d => !Server.fails failures (scope.server? d f) || d.type.nullable) .other s.root
    request := by
  rw [checkParts_iff]
  simp only [NullableWhere, Bool.or_eq_true, Bool.not_eq_true', ← Bool.not_eq_true, imp_iff_not_or]

instance : Decidable (s.NullableWhere request failures) :=
  decidable_of_iff _ nullableWhere_iff.symm

end Schema

/-! ### Where the fields are that are loaded together -/

/-- The fields that are loaded together for a value of this type are selected on values of it: those
at whose places rows are selected on, or below which pages or edges have such places. -/
def Scope.Placed {C : Type} (s : Schema C) (request : List Selection) (type : ObjectType C) :
    Scope C → Prop
  | rows nested positions => ∀ p ∈ positions,
      s.Reaches request (rows nested positions) type p.selections
  | page nested positions => ∃ fields, positions = rowFields true fields ∧
      ∀ f ∈ fields, s.Reaches request (page nested positions) type f.selections
  | edge nested positions => ∃ edges : List SelectedField,
      positions = (edges.flatMap SelectedField.children).filter (·.name = "node") ∧
      ∀ e ∈ edges, s.Reaches request (edge nested positions) type e.selections
  | other => True

/-- What is loaded in a scope is loaded for these fields. -/
inductive Scope.LoadedFor {C : Type} (fields : List SelectedField) : Scope C → Prop where
  | served {single paginated : Bool} (hsingle : single = true → paginated = false)
      (nested : List (String × NestedField C)) :
      LoadedFor fields (.served single paginated nested (rowFields paginated fields))
  | edge (nested : List (String × NestedField C)) :
      LoadedFor fields
        (.edge nested ((fields.flatMap SelectedField.children).filter (·.name = "node")))

namespace Scope

variable {C : Type} {s : Schema C} {request : List Selection} {type : ObjectType C}
  {fields : List SelectedField} {scope : Scope C}

theorem LoadedFor.placed (h : scope.LoadedFor fields)
    (hfields : ∀ f ∈ fields, s.Reaches request scope type f.selections) :
    scope.Placed s request type := by
  cases h with
  | edge nested => exact ⟨fields, rfl, hfields⟩
  | @served single paginated hsingle nested =>
      cases paginated with
      | false =>
          have hrows : Scope.served single false nested (rowFields false fields) =
              rows nested fields := by
            cases single <;> rfl
          rw [hrows] at hfields ⊢
          exact hfields
      | true =>
          cases single with
          | true => cases hsingle rfl
          | false => exact ⟨fields, rfl, hfields⟩

/-- Nothing is selected on rows that are loaded for fields without a selection. -/
theorem LoadedFor.selected_eq_nil (h : scope.LoadedFor fields)
    (hnone : fields.flatMap SelectedField.children = []) : scope.selected = [] := by
  cases h with
  | edge nested =>
      rw [hnone]
      rfl
  | @served single paginated hsingle nested =>
      have hrows : (rowFields paginated fields).flatMap SelectedField.children = [] := by
        cases paginated with
        | false => exact hnone
        | true =>
            rw [rowFields, hnone]
            rfl
      rw [Scope.served]
      split <;> exact hrows

end Scope

namespace Schema

variable {C : Type} {s : Schema C} {request : List Selection}

/-- What a field is selected together with: fields that resolve in the same way, in the same scope. -/
def Together (s : Schema C) (request : List Selection) (scope : Scope C) (type : ObjectType C)
    (d : FieldDef C) (f : SelectedField) (fields : List SelectedField) : Prop :=
  ∀ g ∈ fields, scope.below d g = scope.below d f ∧ type.resolved? g = some d ∧
    ∃ selections, s.Reaches request scope type selections ∧ g ∈ fieldsOf selections

section

variable {scope : Scope C} {type : ObjectType C} {d : FieldDef C} {f : SelectedField}

/-- Fields of one name that are selected below others, on values of one type. -/
theorem together_of_children (hd : type.resolved? f = some d) {parents fields : List SelectedField}
    (hparents : ∀ p ∈ parents, s.Reaches request scope type p.selections)
    (hchildren : ∀ g ∈ fields, g ∈ parents.flatMap SelectedField.children)
    (hnames : ∀ g ∈ fields, g.name = f.name)
    (hbelow : ∀ g ∈ fields, scope.below d g = scope.below d f) :
    s.Together request scope type d f fields := by
  intro g hg
  obtain ⟨p, hp, hmem⟩ := List.mem_flatMap.mp (hchildren g hg)
  refine ⟨hbelow g hg, ?_, p.selections, hparents p hp, hmem⟩
  rw [ObjectType.resolved?, hnames g hg]
  exact hd

/-- The occurrences of a nested field are selected together. -/
theorem below_nested (hsingle : s.SinglesPlain request) (hunambiguous : s.Unambiguous request)
    (hplaced : scope.Placed s request type) (hselects : s.Selects request scope f d)
    (hd : type.resolved? f = some d) (hkind : d.kind = .nested) :
    scope.below d f = .other ∨
    ∃ fields, s.Together request scope type d f fields ∧ (scope.below d f).LoadedFor fields := by
  have hbelow : ∀ g, scope.below d g =
      ((scope.loaded? g).map (Scope.belowNested (scope.occurrences g))).getD .other :=
    Scope.below_of_nested scope hkind
  cases hloaded : scope.loaded? f with
  | none =>
      left
      rw [hbelow, hloaded]
      rfl
  | some n =>
      have hregistered := Scope.registered?_of_loaded? hloaded
      obtain ⟨column, single, resolver, below⟩ := n
      cases scope with
      | rows nested positions =>
          have hnames := hunambiguous nested positions f d hselects hkind
          refine .inr ⟨Load.occurring nested positions f.key,
            together_of_children hd hplaced (fun g hg => (List.mem_filter.mp hg).1) hnames ?_, ?_⟩
          · intro g hg
            obtain ⟨hkey, -⟩ := of_decide_eq_true (List.mem_filter.mp hg).2
            rw [hbelow, hbelow]
            simp only [Scope.loaded?, Scope.occurrences, hkey, hnames g hg]
          · rw [hbelow, hloaded]
            refine .served ?_ below
            rintro rfl
            exact hsingle _ f d hselects hkind column resolver below hregistered
      | page | edge | other => cases hregistered

/-- The edges of a page are selected together, and so are the nodes of edges. -/
theorem below_column (hplaced : scope.Placed s request type) (hd : type.resolved? f = some d)
    (hkind : d.kind = .column) :
    scope.below d f = .other ∨
    ∃ fields, s.Together request scope type d f fields ∧ (scope.below d f).LoadedFor fields := by
  have hname := ObjectType.name_of_resolved? hd
  have hbelow : ∀ g, scope.below d g = scope.belowColumn d.name := Scope.below_of_column scope hkind
  rw [hbelow]
  cases scope with
  | rows | other => exact .inl rfl
  | page nested positions =>
      by_cases hedges : d.name = "edges"
      · obtain ⟨pages, rfl, hpages⟩ := hplaced
        refine .inr ⟨(pages.flatMap SelectedField.children).filter (·.name = "edges"),
          together_of_children hd hpages (fun g hg => (List.mem_filter.mp hg).1) (fun g hg => ?_)
            (fun g _ => by rw [hbelow, hbelow]), ?_⟩
        · exact (of_decide_eq_true (List.mem_filter.mp hg).2).trans (hedges ▸ hname)
        · rw [Scope.belowColumn, if_pos hedges]
          exact .edge nested
      · exact .inl (if_neg hedges)
  | edge nested positions =>
      by_cases hnode : d.name = "node"
      · obtain ⟨edges, rfl, hedges⟩ := hplaced
        refine .inr ⟨(edges.flatMap SelectedField.children).filter (·.name = "node"),
          together_of_children hd hedges (fun g hg => (List.mem_filter.mp hg).1) (fun g hg => ?_)
            (fun g _ => by rw [hbelow, hbelow]), ?_⟩
        · exact (of_decide_eq_true (List.mem_filter.mp hg).2).trans (hnode ▸ hname)
        · have hplain : (true : Bool) = true → (false : Bool) = false := fun _ => rfl
          rw [Scope.belowColumn, if_pos hnode]
          exact .served hplain nested
      · exact .inl (if_neg hnode)

/-- **What is loaded for the value of a field** is loaded for fields that it is selected together
with. -/
theorem below_cases (hsingle : s.SinglesPlain request) (hunambiguous : s.Unambiguous request)
    (hplaced : scope.Placed s request type) {selections : List Selection}
    (h : s.Reaches request scope type selections) (hf : f ∈ fieldsOf selections)
    (hd : type.resolved? f = some d) :
    scope.below d f = .other ∨
    ∃ fields, s.Together request scope type d f fields ∧ (scope.below d f).LoadedFor fields := by
  have hselects : s.Selects request scope f d := ⟨type, selections, h, hf, hd⟩
  cases hkind : d.kind with
  | root r =>
      refine .inr ⟨[f], fun g hg => ?_, ?_⟩
      · obtain rfl := List.mem_singleton.mp hg
        exact ⟨rfl, hd, selections, h, hf⟩
      · rw [Scope.below_of_root scope hkind]
        refine .served ?_ r.nested
        intro h
        cases h
  | nested => exact below_nested hsingle hunambiguous hplaced hselects hd hkind
  | column => exact below_column hplaced hd hkind

end

/-- The fields that are loaded together are selected on values of one type. -/
theorem Reaches.placed (hsingle : s.SinglesPlain request) (hunambiguous : s.Unambiguous request)
    {scope : Scope C} {type : ObjectType C} {selections : List Selection}
    (h : s.Reaches request scope type selections) : scope.Placed s request type := by
  induction h with
  | root => trivial
  | @inside scope type type' selections f d h hf hd htype ih =>
      obtain hother | ⟨fields, htogether, hloaded⟩ := below_cases hsingle hunambiguous ih h hf hd
      · rw [hother]
        trivial
      · refine hloaded.placed fun g hg => ?_
        obtain ⟨hsame, hresolved, selections', hreaches, hmem⟩ := htogether g hg
        rw [← hsame]
        exact hreaches.inside hmem hresolved htype

/-- **A request is valid** when no field whose type is no object type has a selection, no response
key denotes two different nested fields on the same rows, and the resolvers of single rows are
plain. -/
theorem valid_of_leaves
    (hnames : ∀ scope f d, s.Selects request scope f d → d.kind = .column → IsOrdinary d.name)
    (hleaves : ∀ scope f d, s.Selects request scope f d → s.object? d.type.base = none →
      f.children = [])
    (hunambiguous : s.Unambiguous request) (hsingle : s.SinglesPlain request) :
    s.Valid request := by
  refine ⟨hnames, ?_, hunambiguous⟩
  rintro scope f d ⟨type, selections, h, hf, hd⟩ htype
  obtain hother | ⟨fields, htogether, hloaded⟩ :=
    below_cases hsingle hunambiguous (h.placed hsingle hunambiguous) h hf hd
  · rw [hother]
    rfl
  · refine hloaded.selected_eq_nil (List.flatMap_eq_nil_iff.mpr fun g hg => ?_)
    obtain ⟨-, hresolved, selections', hreaches, hmem⟩ := htogether g hg
    exact hleaves scope g d ⟨type, selections', hreaches, hmem, hresolved⟩ htype

end Schema

end RelaySql
