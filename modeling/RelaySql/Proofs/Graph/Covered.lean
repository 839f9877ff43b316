import RelaySql.Proofs.Graph.Shown

/-!
# Execution — every nested field was loaded

Looking ahead merges the occurrences of a response key on all rows that are loaded together, and
execution goes through the response position by position.  They stay in step: whatever was to be
read in the place of a nested field that was not loaded, the response would be the same.

* `Execution.agrees_parts`: a selection on a value of its scope is executed in the same way however
  missing columns are read.
* `Schema.matches_iff`: whether a request matches the resolvers of the schema can be checked.
* `Schema.execute_covered`: a request that matches the resolvers never reads a nested field that was
  not loaded with its parent row.
-/

namespace RelaySql

/-! ### Reading in another way -/

namespace Execution

variable {C : Type} (read : (parent : Json) → (key : String) → Except String Json)

/-- The value of a field, where nested fields are read from their parents in this way. -/
def fieldValueReading (context : Option C) (d : FieldDef C) (parent : Json) (path : Path)
    (f : SelectedField) : Execution (Option Json) :=
  match d.kind with
  | .nested => isolate d.type path (read parent f.key)
  | .root _ | .column => fieldValue context d parent path f

mutual

/-- Resolves a part of a selection, where nested fields are read from their parents in this way. -/
def partReading (s : Schema C) (context : Option C) (type : ObjectType C) (parent : Json)
    (path : Path) : Selection → Execution (List (String × Json))
  | .fragment on selections =>
    if on.all (· = type.name) then partsReading s context type parent path selections else return []
  | .field key name arguments selections => do
    if name = "__typename" then return [(key, .string type.name)]
    else match type.field? name with
      | none => return []
      | some d =>
        let path := path ++ [.key key]
        let value ← fieldValueReading read context d parent path ⟨key, name, arguments, selections⟩
        let object (type : ObjectType C) (v : Json) (path : Path) : Execution Json := do
          return .object (Json.mergeMembers [] (← partsReading s context type v path selections))
        return [(key, ← complete s object d.type value path)]

/-- Resolves a selection, where nested fields are read from their parents in this way. -/
def partsReading (s : Schema C) (context : Option C) (type : ObjectType C) (parent : Json)
    (path : Path) : List Selection → Execution (List (String × Json))
  | [] => return []
  | selection :: rest => do
    let values ← partReading s context type parent path selection
    return values ++ (← partsReading s context type parent path rest)

end

end Execution

/-- Executes a selection, where nested fields are read from their parents in this way. -/
def Schema.executeReading {C : Type} (read : (parent : Json) → (key : String) → Except String Json)
    (s : Schema C) (context : Option C) (request : List Selection) : Response :=
  respond ((Execution.partsReading read s context s.root .null [] request).after {})

namespace Execution

variable {C : Type}

theorem fieldValueReading_loadedValue (context : Option C) (d : FieldDef C) (parent : Json)
    (path : Path) (f : SelectedField) :
    fieldValueReading loadedValue context d parent path f = fieldValue context d parent path f := by
  cases hkind : d.kind <;> simp only [fieldValueReading, fieldValue, hkind]

theorem partsReading_loadedValue (s : Schema C) (context : Option C) (type : ObjectType C)
    (parent : Json) (path : Path) : ∀ selections : List Selection,
      partsReading loadedValue s context type parent path selections =
        parts s context type parent path selections
  | [] => rfl
  | selection :: rest => by
      have hpart : partReading loadedValue s context type parent path selection =
          part s context type parent path selection := by
        cases selection with
        | fragment on inner =>
            simp only [part, partReading, partsReading_loadedValue s context type parent path inner]
        | field key name arguments inner =>
            have hinner := fun type v path =>
              partsReading_loadedValue s context type v path inner
            simp only [part, partReading]
            split
            · rfl
            cases type.field? name with
            | none => rfl
            | some d => simp only [fieldValueReading_loadedValue, hinner]
      simp only [parts, partsReading, hpart,
        partsReading_loadedValue s context type parent path rest]

end Execution

/-- Reading nested fields as requests do is executing the request. -/
theorem Schema.executeReading_loadedValue {C : Type} (s : Schema C) (context : Option C)
    (request : List Selection) :
    s.executeReading Execution.loadedValue context request = s.execute context request := by
  rw [execute_eq, executeReading, Execution.partsReading_loadedValue]

/-! ### Executions that agree -/

namespace Execution

variable {α β : Type} {allowed : String → Prop}

/-- Two executions do the same: what they return has a property, and what they report has an allowed
message. -/
structure Agrees (allowed : String → Prop) (m m' : Execution α) (returned : α → Prop) : Prop where
  same : ∀ p, m.after p = m'.after p
  reports : ∀ p, ∀ report ∈ (m.after p).2.reports, report ∈ p.reports ∨ allowed report.message
  returned : ∀ p a, (m.after p).1 = .ok a → returned a
  ended : ∀ p report, (m.after p).1 = .error report → allowed report.message

theorem agrees_pure {a : α} {returned : α → Prop} (h : returned a) :
    Agrees allowed (pure a) (pure a) returned := by
  refine ⟨fun p => rfl, fun p report hr => .inl hr, ?_, ?_⟩
  · rintro p b hb
    obtain rfl := Except.ok.inj hb
    exact h
  · rintro p report hr
    cases hr

theorem agrees_throw {report : Report} (h : allowed report.message) (returned : α → Prop) :
    Agrees allowed (throw report : Execution α) (throw report) returned := by
  refine ⟨fun p => rfl, fun p report hr => .inl hr, ?_, ?_⟩
  · rintro p b hb
    cases hb
  · rintro p report' hr
    obtain rfl := Except.error.inj hr
    exact h

theorem Agrees.mono {m m' : Execution α} {returned returned' : α → Prop}
    (h : Agrees allowed m m' returned) (himp : ∀ a, returned a → returned' a) :
    Agrees allowed m m' returned' :=
  ⟨h.same, h.reports, fun p a ha => himp a (h.returned p a ha), h.ended⟩

theorem agrees_bind {m m' : Execution α} {f f' : α → Execution β} {middle : α → Prop}
    {returned : β → Prop} (hm : Agrees allowed m m' middle)
    (hf : ∀ a, middle a → Agrees allowed (f a) (f' a) returned) :
    Agrees allowed (m >>= f) (m' >>= f') returned := by
  have hgo : ∀ p a q, m.after p = (.ok a, q) → Agrees allowed (f a) (f' a) returned :=
    fun p a q h => hf a (hm.returned p a (congrArg Prod.fst h))
  refine ⟨fun p => ?_, fun p report hr => ?_, fun p b hb => ?_, fun p report hr => ?_⟩
  · rw [after_bind, after_bind, ← hm.same p]
    rcases h : m.after p with ⟨e | a, q⟩
    · rfl
    · exact (hgo p a q h).same q
  · have hfirst := hm.reports p
    rw [after_bind] at hr
    rcases h : m.after p with ⟨e | a, q⟩ <;> rw [h] at hr hfirst
    · exact hfirst report hr
    · rcases (hgo p a q h).reports q report hr with hq | hallowed
      · exact hfirst report hq
      · exact .inr hallowed
  · rw [after_bind] at hb
    rcases h : m.after p with ⟨e | a, q⟩ <;> rw [h] at hb
    · cases hb
    · exact (hgo p a q h).returned q b hb
  · have hfirst := hm.ended p
    rw [after_bind] at hr
    rcases h : m.after p with ⟨e | a, q⟩ <;> rw [h] at hr hfirst
    · obtain rfl := Except.error.inj hr
      exact hfirst e rfl
    · exact (hgo p a q h).ended q report hr

/-- What fails alone, or ends the request, with an allowed message. -/
theorem agrees_isolate (type : TypeRef) (path : Path) {value : Except String Json}
    (h : ∀ message, value = .error message → allowed message) :
    Agrees allowed (isolate type path value) (isolate type path value) fun found =>
      ∀ w, found = some w → ∃ v, value = .ok v ∧ v.fieldValue? = some w := by
  cases value with
  | ok v => exact agrees_pure fun w hw => ⟨v, rfl, hw⟩
  | error message =>
      cases hnull : type.nullable with
      | true =>
          refine ⟨fun p => rfl, fun p report hr => ?_, fun p a ha => ?_, fun p report hr => ?_⟩
          · rw [after_isolate_nullable hnull] at hr
            rcases List.mem_append.mp hr with hr | hr
            · exact .inl hr
            · obtain rfl := List.mem_singleton.mp hr
              exact .inr (h message rfl)
          · rw [after_isolate_nullable hnull] at ha
            obtain rfl := Except.ok.inj ha
            exact fun w hw => by cases hw
          · rw [after_isolate_nullable hnull] at hr
            cases hr
      | false =>
          refine ⟨fun p => rfl, fun p report hr => ?_, fun p a ha => ?_, fun p report hr => ?_⟩
          · rw [after_isolate_nonNull hnull] at hr
            exact .inl hr
          · rw [after_isolate_nonNull hnull] at ha
            cases ha
          · rw [after_isolate_nonNull hnull] at hr
            obtain rfl := Except.error.inj hr
            exact h message rfl

variable {C : Type}

/-- A field with a resolver resolves to what it loads, in the context of the request. -/
theorem agrees_rootValue
    (hunquoted : ∀ message : String, message.toList.head? ≠ some '"' → allowed message)
    (context : Option C) (r : FieldResolver C) (f : SelectedField) :
    Agrees allowed (rootValue context r f) (rootValue context r f) fun value =>
      (∀ message, value = .error message → allowed message) ∧
      ∀ v, value = .ok v → ∃ c ∈ context, ∃ t resolution,
        ((r.load c f).after t).1 = .ok resolution ∧ v = resolution.toJson := by
  cases context with
  | none =>
      refine agrees_pure ⟨fun message h => ?_, fun v h => by cases h⟩
      obtain rfl := Except.error.inj h
      exact hunquoted _ (by decide)
  | some c =>
      refine ⟨fun p => rfl, fun p report hr => ?_, fun p value hvalue => ?_, fun p report hr => ?_⟩
      · rw [after_rootValue] at hr
        exact .inl hr
      · rw [after_rootValue] at hvalue
        obtain rfl := Except.ok.inj hvalue
        cases hload : ((r.load c f).after p.trace).1 with
        | error fault =>
            refine ⟨fun message h => ?_, fun v h => nomatch h⟩
            obtain rfl := Except.error.inj h
            exact hunquoted _ fault.head?_message
        | ok resolution =>
            refine ⟨fun message h => (nomatch h), fun v h => ?_⟩
            obtain rfl := Except.ok.inj h
            exact ⟨c, rfl, p.trace, resolution, hload, rfl⟩
      · rw [after_rootValue] at hr
        cases hr

/-- Completing the items of a list. -/
theorem agrees_completeItems {item item' : Json → Path → Execution Json} {items : List Json}
    (h : ∀ v ∈ items, ∀ path, Agrees allowed (item v path) (item' v path) fun _ => True)
    (path : Path) (start : Nat) :
    Agrees allowed (completeItems item path start items) (completeItems item' path start items)
      fun _ => True := by
  induction items generalizing start with
  | nil => exact agrees_pure trivial
  | cons v rest ih =>
      obtain ⟨hv, hrest⟩ := List.forall_mem_cons.mp h
      refine agrees_bind (hv _) fun a _ => ?_
      exact agrees_bind (ih hrest (start + 1)) fun _ _ => agrees_pure trivial

/-- Completing a value whose values of object types are resolved in the same way. -/
theorem agrees_complete {s : Schema C} {object object' : ObjectType C → Json → Path → Execution Json}
    (hunquoted : ∀ message : String, message.toList.head? ≠ some '"' → allowed message)
    {type : TypeRef} {v : Option Json}
    (h : ∀ w, v = some w → ∀ atom ∈ type.atoms w, ∀ inner, s.object? type.base = some inner →
      ∀ path, Agrees allowed (object inner atom path) (object' inner atom path) fun _ => True)
    (path : Path) :
    Agrees allowed (complete s object type v path) (complete s object' type v path)
      fun _ => True := by
  induction type generalizing v path with
  | nonNull type ih =>
      cases v with
      | none =>
          exact agrees_throw (hunquoted "internal: non-null types require a return value"
            (by decide)) _
      | some w => exact ih (v := some w) h path
  | list item ih =>
      have hthrow : ∀ returned, Agrees allowed
          (throw ⟨"internal: expects an array", path⟩ : Execution Json)
          (throw ⟨"internal: expects an array", path⟩) returned :=
        agrees_throw (hunquoted "internal: expects an array" (by decide))
      cases v with
      | none => exact agrees_pure trivial
      | some w =>
          cases w with
          | array items =>
              have hitems : ∀ v ∈ items, ∀ path, Agrees allowed
                  (complete s object item (some v) path) (complete s object' item (some v) path)
                  fun _ => True := by
                intro v hv path
                refine ih (fun w hw atom hatom => ?_) path
                obtain rfl := Option.some.inj hw
                exact h _ rfl atom (List.mem_flatMap.mpr ⟨v, hv, hatom⟩)
              exact agrees_bind (agrees_completeItems hitems path 0) fun _ _ => agrees_pure trivial
          | null | boolean | number | string | object => exact hthrow _
  | named name =>
      cases v with
      | none => exact agrees_pure trivial
      | some w =>
          simp only [complete]
          cases hobject : s.object? name with
          | some inner => exact h w rfl w (List.mem_singleton_self w) inner hobject path
          | none =>
              cases w with
              | array items =>
                  refine agrees_throw (hunquoted _ ?_) _
                  simp only [String.append_assoc]
                  exact head?_append_ne (by decide) (by decide)
              | null | boolean | number | string | object => exact agrees_pure trivial

end Execution

/-! ### Requests that match the resolvers -/

namespace Schema

variable {C : Type}

/-- The resolvers of the fields that a request selects match their types and what is selected on
their rows: a plain resolver is behind a list, unless it serves a single row, and only a plain one
does; every nested field is selected on rows and registered for them; and no response key denotes two
of them on the same rows. -/
structure Matches (s : Schema C) (request : List Selection) : Prop where
  roots : ∀ scope f d r, s.Selects request scope f d → d.kind = .root r →
    r.resolver.paginated = false → d.type.isList
  lists : ∀ scope f d column resolver nested, s.Selects request scope f d → d.kind = .nested →
    scope.registered? f = some (.mk column false resolver nested) →
    resolver.paginated = false → d.type.isList
  singles : s.SinglesPlain request
  registered : ∀ scope f d, s.Selects request scope f d → d.kind = .nested →
    (scope.registered? f).isSome
  unambiguous : s.Unambiguous request

/-- The resolver of a field that is selected in a scope matches the field's type and what is selected
on its rows. -/
def matchesAt (scope : Scope C) (f : SelectedField) (d : FieldDef C) : Bool :=
  match d.kind with
  | .root r => r.resolver.paginated || d.type.isList
  | .nested =>
    match scope.registered? f with
    | none => false
    | some (.mk _ single resolver _) =>
      (if single then !resolver.paginated else resolver.paginated || d.type.isList) &&
        (scope.occurrences f).all fun g => g.name = f.name
  | .column => true

/-- Whether a request matches the resolvers can be checked. -/
theorem matches_iff {s : Schema C} {request : List Selection} :
    s.Matches request ↔ s.checkParts matchesAt .other s.root request := by
  rw [checkParts_iff]
  constructor
  · intro h scope f d hselects
    cases hkind : d.kind with
    | root r =>
        have hroot := h.roots scope f d r hselects hkind
        simp only [matchesAt, hkind, Bool.or_eq_true]
        cases hp : r.resolver.paginated with
        | true => exact .inl rfl
        | false => exact .inr (hroot hp)
    | nested =>
        obtain ⟨⟨column, single, resolver, below⟩, hn⟩ :=
          Option.isSome_iff_exists.mp (h.registered scope f d hselects hkind)
        simp only [matchesAt, hkind, hn, Bool.and_eq_true, List.all_eq_true, decide_eq_true_eq]
        refine ⟨?_, ?_⟩
        · cases single with
          | true => simpa using h.singles scope f d hselects hkind column resolver below hn
          | false =>
              have hlist := h.lists scope f d column resolver below hselects hkind hn
              cases hp : resolver.paginated with
              | true => rfl
              | false => simpa [hp] using hlist hp
        · cases scope with
          | rows nested positions => exact h.unambiguous nested positions f d hselects hkind
          | page | edge | other => cases hn
    | column => simp only [matchesAt, hkind]
  · intro h
    have hnested : ∀ scope f d, s.Selects request scope f d → d.kind = .nested →
        ∃ column single resolver below, scope.registered? f = some (.mk column single resolver below) ∧
          (if single then !resolver.paginated else resolver.paginated || d.type.isList) ∧
          ∀ g ∈ scope.occurrences f, g.name = f.name := by
      intro scope f d hselects hkind
      have hat := h scope f d hselects
      simp only [matchesAt, hkind] at hat
      split at hat
      · cases hat
      next column single resolver below hn =>
      simp only [Bool.and_eq_true, List.all_eq_true, decide_eq_true_eq] at hat
      exact ⟨column, single, resolver, below, hn, hat⟩
    refine ⟨fun scope f d r hselects hkind hp => ?_,
      fun scope f d column resolver below hselects hkind hn hp => ?_,
      fun scope f d hselects hkind column resolver below hn => ?_,
      fun scope f d hselects hkind => ?_, fun nested positions f d hselects hkind => ?_⟩
    · have hat := h scope f d hselects
      simpa only [matchesAt, hkind, hp, Bool.false_or] using hat
    all_goals
      obtain ⟨column', single', resolver', below', hn', hshape, hnames⟩ :=
        hnested _ f d hselects hkind
    · obtain ⟨rfl, rfl, rfl, rfl⟩ := NestedField.mk.inj (Option.some.inj (hn'.symm.trans hn))
      simpa [hp] using hshape
    · obtain ⟨rfl, rfl, rfl, rfl⟩ := NestedField.mk.inj (Option.some.inj (hn'.symm.trans hn))
      simpa using hshape
    · exact Option.isSome_of_eq_some hn'
    · exact hnames

instance (s : Schema C) (request : List Selection) : Decidable (s.Matches request) :=
  decidable_of_iff _ matches_iff.symm

end Schema

namespace Execution

variable {C : Type} {s : Schema C} {request : List Selection} {context : Option C}
  {given : Row → Prop} {allowed : String → Prop} {read : Json → String → Except String Json}
  (hmatches : s.Matches request) (hallows : Allows allowed given)
  (hgiven : ∀ used, s.Uses used → ∀ row, used.source.Gives row → given row.visible)
  (hread : ∀ row key v, Fields.get? row (loadedColumn key) = some v →
    read (.object row) key = loadedValue (.object row) key)

include hmatches hallows hgiven hread

/-- **The value of a field** is found in the same way however missing columns are read, and holds
what the scope below the field tells. -/
theorem agrees_fieldValue {scope : Scope C} {type : ObjectType C} {selections : List Selection}
    (hreaches : s.Reaches request scope type selections) {f : SelectedField} {d : FieldDef C}
    (hf : f ∈ fieldsOf selections) (hd : type.resolved? f = some d) {parent : Json}
    (hparent : scope.Holds context given parent) (path : Path) :
    Agrees allowed (fieldValue context d parent path f)
      (fieldValueReading read context d parent path f)
      fun found => ∀ w, found = some w → ∀ atom ∈ d.type.atoms w,
        (scope.below d f).Holds context given atom := by
  have hselects : s.Selects request scope f d := ⟨type, selections, hreaches, hf, hd⟩
  cases hkind : d.kind with
  | root r =>
      simp only [fieldValue, fieldValueReading, hkind]
      refine agrees_bind (agrees_rootValue hallows.unquoted context r f) fun value hvalue => ?_
      refine (agrees_isolate d.type path hvalue.1).mono fun found hfound w hw atom hatom => ?_
      obtain ⟨v, hv, hw⟩ := hfound w hw
      obtain ⟨c, hc, t, resolution, hload, rfl⟩ := hvalue.2 v hv
      obtain ⟨l, hnested, hpositions, hown, hshows⟩ := FieldResolver.load_eq_ok hload
      have hsupplied : l.Supplied given := by
        refine ⟨fun own hm => ?_, fun used hused => ?_⟩
        · obtain ⟨row, hrow, rfl⟩ := hown own hm
          exact hgiven r.resolver (hselects.uses hkind (.inl rfl)) row hrow
        · exact hgiven used (hselects.uses hkind (.inr (hnested ▸ hused)))
      have hholds : (Scope.served false r.resolver.paginated l.nested l.positions).Holds context
          given atom :=
        Scope.holds_served hc hsupplied hshows
          (fun _ => hmatches.roots scope f d r hselects hkind) hw hatom
      rw [hnested, hpositions] at hholds
      rw [Scope.below_of_root scope hkind]
      exact hholds
  | nested =>
      simp only [fieldValue, fieldValueReading, hkind]
      -- the field is selected on rows that it is registered for
      have hsome := hmatches.registered scope f d hselects hkind
      have hm := Scope.mem_occurrences (hreaches.covers hmatches.singles) hf hsome
      have hloaded := Scope.loaded?_eq_registered? hm
      obtain ⟨⟨column, single, resolver, below⟩, hn⟩ := Option.isSome_iff_exists.mp hsome
      rw [Scope.below_of_nested scope hkind, hloaded, hn, Option.map_some, Option.getD_some]
      have hplain : single = false → resolver.paginated = false → d.type.isList := by
        rintro rfl hp
        exact hmatches.lists scope f d column resolver below hselects hkind hn hp
      cases scope with
      | rows nested positions =>
          obtain ⟨row, v, rfl, hcolumn, herror, hvalue⟩ := Scope.holds_nested hallows hparent hm
            (hmatches.unambiguous nested positions f d hselects hkind) hn
          rw [hread row f.key v hcolumn, loadedValue_of_column hcolumn]
          refine (agrees_isolate d.type path herror).mono fun found hfound w hw atom hatom => ?_
          obtain ⟨v', hv', hw⟩ := hfound w hw
          obtain rfl := reading_eq_ok hv'
          exact hvalue d.type hplain hv' w hw atom hatom
      | page | edge | other => cases hn
  | column =>
      simp only [fieldValue, fieldValueReading, hkind]
      refine agrees_pure fun w hw atom hatom => ?_
      obtain ⟨v, hv, hw⟩ := Option.bind_eq_some_iff.mp hw
      obtain rfl : v = w := by
        cases v with
        | null => cases hw
        | boolean | number | string | array | object => exact Option.some.inj hw
      rw [Scope.below_of_column scope hkind]
      exact Scope.holds_column hparent hv hatom

/-- **A selection** on a value of its scope is executed in the same way however missing columns are
read. -/
theorem agrees_parts {scope : Scope C} {type : ObjectType C} {selections : List Selection}
    (hreaches : s.Reaches request scope type selections) {parent : Json}
    (hparent : scope.Holds context given parent) (path : Path) :
    ∀ inner : List Selection, (∀ f ∈ fieldsOf inner, f ∈ fieldsOf selections) →
      Agrees allowed (parts s context type parent path inner)
        (partsReading read s context type parent path inner) fun _ => True
  | [], _ => agrees_pure trivial
  | selection :: rest, hsub => by
      obtain ⟨hfirst, hrest⟩ := List.forall_mem_append.mp hsub
      have hpart : Agrees allowed (part s context type parent path selection)
          (partReading read s context type parent path selection) fun _ => True := by
        cases selection with
        | fragment on inner =>
            simp only [part, partReading]
            split
            · exact agrees_parts hreaches hparent path inner hfirst
            · exact agrees_pure trivial
        | field key name arguments inner =>
            simp only [part, partReading]
            split
            · exact agrees_pure trivial
            next hname =>
            cases hfield : type.field? name with
            | none => exact agrees_pure trivial
            | some d =>
                have hf := hfirst ⟨key, name, arguments, inner⟩ (List.mem_singleton_self _)
                have hd : type.resolved? ⟨key, name, arguments, inner⟩ = some d :=
                  (if_neg hname).trans hfield
                refine agrees_bind (agrees_fieldValue hmatches hallows hgiven hread hreaches hf hd
                  hparent _) fun found hfound => ?_
                refine agrees_bind (agrees_complete hallows.unquoted
                  (fun w hw atom hatom type' htype path => ?_) _) fun _ _ => agrees_pure trivial
                exact agrees_bind (agrees_parts (hreaches.inside hf hd htype)
                  (hfound w hw atom hatom) path inner fun f hf => hf) fun _ _ => agrees_pure trivial
      simp only [parts, partsReading]
      exact agrees_bind hpart fun _ _ =>
        agrees_bind (agrees_parts hreaches hparent path rest hrest) fun _ _ => agrees_pure trivial

end Execution

namespace Schema

variable {C : Type}

theorem mem_reports_respond {values : Except Report (List (String × Json))} {p : Progress}
    {report : Report} (h : report ∈ (respond (values, p)).reports) :
    report ∈ p.reports ∨ values = .error report := by
  cases values with
  | ok values => exact .inl h
  | error first =>
      rcases List.mem_cons.mp h with rfl | h
      · exact .inr rfl
      · exact .inl h

/-- What is reported of a nested field that was not loaded begins with a quoted name, and is not
what is reported of a value that cannot be read as a fault. -/
theorem failed_ne_unloaded (key key' : String) : Text.quoted key ++ " failed to load" ≠
    Text.quoted key' ++ " was not loaded with its parent row" := by
  intro h
  have hlast := congrArg (fun text => text.toList.getLast?) h
  simp only [String.toList_append] at hlast
  rw [List.getLast?_append_of_ne_nil _ (by decide), List.getLast?_append_of_ne_nil _ (by decide)]
    at hlast
  revert hlast
  decide

theorem head?_unloaded (key : String) :
    (Text.quoted key ++ " was not loaded with its parent row").toList.head? = some '"' := by
  rw [String.toList_append, Text.toList_quoted]
  rfl

/-- The row is one that a source of the schema gives, as it is shown. -/
def Shown (s : Schema C) (own : Row) : Prop :=
  ∃ used row, s.Uses used ∧ used.source.Gives row ∧ own = row.visible

/-- The message does not tell of a nested field that was not loaded, unless a source gives just this
text in the place of a fault. -/
def Sayable (s : Schema C) (message : String) : Prop :=
  ∀ key, message = Text.quoted key ++ " was not loaded with its parent row" →
    ∃ used row, s.Uses used ∧ used.source.Gives row ∧
      Fields.get? row faultMember = some (.string message)

theorem shown_visible {s : Schema C} {used : Resolver C} (hused : s.Uses used) {row : Row}
    (hrow : used.source.Gives row) : s.Shown row.visible :=
  ⟨used, row, hused, hrow, rfl⟩

theorem sayable_of_unquoted (s : Schema C) {message : String}
    (h : message.toList.head? ≠ some '"') : s.Sayable message := by
  rintro key rfl
  exact absurd (head?_unloaded key) h

theorem sayable_of_stated {s : Schema C} {own : Row} (hown : s.Shown own) {message : String}
    (h : Fields.get? own faultMember = some (.string message)) : s.Sayable message := by
  obtain ⟨used, row, hused, hrow, rfl⟩ := hown
  rw [Row.get?_visible row (by decide)] at h
  exact fun _ _ => ⟨used, row, hused, hrow, h⟩

/-- What is reported of loaded fields tells of no field that was not loaded. -/
theorem allows_sayable (s : Schema C) : Allows s.Sayable s.Shown where
  unquoted _ h := s.sayable_of_unquoted h
  failed key key' h := absurd h (failed_ne_unloaded key key')
  stated _ _ hown h := sayable_of_stated hown h

/-- **Looking ahead loads everything that execution reads.**  A request that matches the resolvers
has the same response whatever is read in the place of a nested field that was not loaded with its
parent row; so nothing of the kind is reported, unless a source gave just this text in the place
of a fault. -/
theorem execute_covered (s : Schema C) (context : Option C) (request : List Selection)
    (hmatches : s.Matches request) :
    (∀ read : Json → String → Except String Json,
      (∀ row key v, Fields.get? row (loadedColumn key) = some v →
        read (.object row) key = Execution.loadedValue (.object row) key) →
      s.executeReading read context request = s.execute context request) ∧
    ∀ report ∈ (s.execute context request).reports, ∀ key,
      report.message = Text.quoted key ++ " was not loaded with its parent row" →
      ∃ used row, s.Uses used ∧ used.source.Gives row ∧
        Fields.get? row faultMember = some (.string report.message) := by
  have hagrees : ∀ read : Json → String → Except String Json,
      (∀ row key v, Fields.get? row (loadedColumn key) = some v →
        read (.object row) key = Execution.loadedValue (.object row) key) →
      Execution.Agrees s.Sayable (Execution.parts s context s.root .null [] request)
        (Execution.partsReading read s context s.root .null [] request) fun _ => True :=
    fun read hread => Execution.agrees_parts hmatches s.allows_sayable
      (fun _ hused _ hrow => shown_visible hused hrow) hread .root trivial [] request fun f hf => hf
  refine ⟨fun read hread => ?_, fun report hr key h => ?_⟩
  · rw [execute_eq, executeReading, (hagrees read hread).same]
  · have hself := hagrees Execution.loadedValue fun _ _ _ _ => rfl
    rw [execute_eq] at hr
    rcases mem_reports_respond hr with hr | hr
    · rcases hself.reports _ report hr with hr | hsayable
      · cases hr
      · exact hsayable key h
    · exact hself.ended _ report hr key h

/-- The resolver of a table whose rows are served as a list or in pages. -/
def ofTable (table : String) (paginated : Bool) : Resolver Unit :=
  ⟨table, some fun _ _ _ _ => .ok "true", none, [⟨"id", .ascending⟩], paginated,
    .ofTables "memory" [("users", [[(parentKeyColumn, .ofNat 1), ("id", .ofNat 1)]]),
      ("posts", [[(parentKeyColumn, .ofNat 1), ("id", .ofNat 10), ("user_id", .ofNat 1)]])] true⟩

/-- Users in pages, with a list of posts, each with its author. -/
def usersWithPosts : FieldResolver Unit :=
  ⟨ofTable "users" true, [("posts", .mk "id" false (ofTable "posts" false)
    [("author", .mk "user_id" true (ofTable "users" false) [])])]⟩

/-- The schema of users and their posts. -/
def ofUsersWithPosts : Schema Unit :=
  (((Graph.registerConnection {} "User").register
      ⟨"Query", [⟨"users", .nonNull (.named "UserConnection"), .root usersWithPosts, []⟩]⟩).register
      ⟨"User", [Graph.columnField "id" (.named "Int"),
        ⟨"posts", .list (.nonNull (.named "Post")), .nested, []⟩]⟩).register
    ⟨"Post", [Graph.columnField "id" (.named "Int"), ⟨"author", .named "User", .nested, []⟩]⟩

/-- The posts of users, selected under aliases of `edges` and `node`, twice under one key, and
through a fragment. -/
def postsTwice : List Selection :=
  [.field "users" "users" [] [.field "a" "edges" [] [.field "b" "node" []
    [.field "posts" "posts" [] [.field "id" "id" [] []],
      .fragment (some "User") [.field "posts" "posts" []
        [.field "by" "author" [] [.field "id" "id" [] []]]]]]]]

/-- The request for posts has the same response however missing columns are read. -/
theorem execute_covered_postsTwice : ofUsersWithPosts.Matches postsTwice ∧
    (∀ read : Json → String → Except String Json,
      (∀ row key v, Fields.get? row (loadedColumn key) = some v →
        read (.object row) key = Execution.loadedValue (.object row) key) →
      ofUsersWithPosts.executeReading read (some ()) postsTwice =
        ofUsersWithPosts.execute (some ()) postsTwice) ∧
    (ofUsersWithPosts.execute (some ()) postsTwice).reports = [] := by
  have hmatches : ofUsersWithPosts.Matches postsTwice := by decide +kernel
  exact ⟨hmatches, (execute_covered ofUsersWithPosts (some ()) postsTwice hmatches).1,
    by decide +kernel⟩

end Schema

end RelaySql
