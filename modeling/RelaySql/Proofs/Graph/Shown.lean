import RelaySql.Proofs.Graph.Layers
import RelaySql.Proofs.Graph.Scopes
import RelaySql.Proofs.Resolver.Shape

/-!
# Execution — the values that are selected on

A scope tells what was loaded for the values that are selected on in it.  The value of every field
holds what the scope below the field tells.

* `Load.of_mem_values`, `Load.of_mem_yielded`: the value of a load for a row, and what the row is
  given if the load fails.
* `Scope.Holds`: the values that a selection in a scope selects on.
* `Scope.holds_served`, `Scope.holds_column`, `Scope.holds_nested`: the values of fields with a
  resolver, of columns and of nested fields hold what their scopes tell.
-/

namespace RelaySql

/-! ### The values of a load -/

namespace Resolution

theorem isConnection_setNodes (r : Resolution) (rows : List Row) :
    (r.setNodes rows).isConnection = r.isConnection := by
  cases r <;> rfl

/-- Groups that got their rows back are the groups, but for their rows. -/
theorem exists_of_get?_refill {groups : Fields Resolution} {all : List Row} {key : String}
    {r : Resolution} (h : (refill groups all).get? key = some r) :
    ∃ own ∈ groups.values, ∃ rows, r = own.setNodes rows := by
  induction groups generalizing all with
  | nil => cases h
  | cons group rest ih =>
      obtain ⟨k, first⟩ := group
      simp only [refill, Fields.get?] at h
      split at h
      · exact ⟨first, List.mem_cons_self, _, (Option.some.inj h).symm⟩
      · obtain ⟨own, hown, rows, hr⟩ := ih h
        exact ⟨own, List.mem_cons_of_mem _ hown, rows, hr⟩

end Resolution

/-- The value of a nested field that has these rows. -/
def servedJson (single : Bool) (r : Resolution) : Json := if single then r.firstJson else r.toJson

/-- A field that serves only the first row has no value, or that row. -/
theorem servedJson_single (r : Resolution) :
    servedJson true r = .null ∨ ∃ row ∈ r.nodes, servedJson true r = .object row := by
  change Json.ofOption Json.object r.nodes.head? = .null ∨
    ∃ row ∈ r.nodes, Json.ofOption Json.object r.nodes.head? = .object row
  cases hhead : r.nodes.head? with
  | none => exact .inl rfl
  | some row => exact .inr ⟨row, List.mem_of_head? hhead, rfl⟩

theorem servedJson_ne_text (single : Bool) (r : Resolution) (text : String) :
    servedJson single r ≠ .string text := by
  cases single with
  | true =>
      obtain h | ⟨row, -, h⟩ := servedJson_single r <;> exact fun htext => nomatch h.symm.trans htext
  | false =>
      cases r with
      | rows list => exact fun h => by cases h
      | connection page => exact fun h => by cases h

namespace Load

variable {C : Type} {context : C} {table key column : String} {single : Bool}
  {resolver : Resolver C} {arguments : Arguments} {below : List (Load C)}

/-- **The value of a load for a row**: nothing, or a value of the shape that its resolver serves,
whose rows are those that were loaded below it. -/
theorem of_mem_values {batch : List Row} {u : Trace} {values : List Json}
    (hvalues : (((mk key column single resolver arguments below).values context table batch).after
      u).1 = .ok values) {v : Json} (hv : v ∈ values) :
    ∃ groups u' children u'',
      (resolver.resolveNested arguments context ⟨table, column, batch⟩).after u =
        (.ok groups, u') ∧
      (storeAll context resolver.table (groups.values.flatMap Resolution.nodes) below).after u' =
        (.ok children, u'') ∧
      (v = .null ∨ ∃ r, r.isConnection = resolver.paginated ∧ (∀ row ∈ r.nodes, row ∈ children) ∧
        v = servedJson single r) := by
  obtain ⟨groups, u', hgroups, hvalues⟩ := Run.after_bind_eq_ok hvalues
  obtain ⟨children, u'', hchildren, hvalues⟩ := Run.after_bind_eq_ok hvalues
  refine ⟨groups, u', children, u'', hgroups, hchildren, ?_⟩
  rw [Run.after_lift] at hvalues
  obtain ⟨parent, -, hparent⟩ := Except.exists_of_mem_mapM hvalues hv
  obtain ⟨text, -, hparent⟩ := Except.bind_eq_ok.mp hparent
  obtain rfl := Except.ok.inj hparent
  split
  · exact .inl rfl
  · next r hr =>
      obtain ⟨own, hown, rows, rfl⟩ := Resolution.exists_of_get?_refill hr
      have hshape := Resolver.shapes_resolveNested (congrArg Prod.fst hgroups) own hown
      exact .inr ⟨_, (own.isConnection_setNodes rows).trans hshape.paginated,
        fun row hrow => Resolution.mem_of_mem_refill hr hrow, rfl⟩

/-- **What a load yields for a row**: its fault, or its value for the row. -/
theorem of_mem_yielded {batch : List Row} {u : Trace} {v : Json}
    (hv : v ∈ (mk key column single resolver arguments below).yielded context table batch u) :
    (∃ fault : Fault, v = fault.toJson) ∨ v = .null ∨
      ∃ r : Resolution, r.isConnection = resolver.paginated ∧ v = servedJson single r := by
  simp only [yielded] at hv
  split at hv
  · next values hvalues =>
      obtain ⟨-, -, -, -, -, -, hnull | ⟨r, hp, -, hr⟩⟩ := of_mem_values hvalues hv
      · exact .inr (.inl hnull)
      · exact .inr (.inr ⟨r, hp, hr⟩)
  · obtain ⟨parent, -, rfl⟩ := List.mem_map.mp hv
    exact .inl ⟨_, rfl⟩

end Load

/-- The rows of a layer were given by the source of a resolver. -/
def Layer.GivenBy {C : Type} (l : Layer C) (resolver : Resolver C) : Prop :=
  ∀ own ∈ l.batch, ∃ row, resolver.source.Gives row ∧ own = row.visible

/-- The value has the shape that a resolver serves, and its rows are rows of the layer with all that
is loaded for them. -/
def Layer.Shows {C : Type} (l : Layer C) (context : C) (paginated : Bool) (r : Resolution) : Prop :=
  r.isConnection = paginated ∧ ∀ row ∈ r.nodes, row ∈ l.rows context

namespace Layer

variable {C : Type} {context : C} {l : Layer C}

/-- **What a load comes to for a row**: nothing, or a value that shows rows of a layer of their
own. -/
theorem of_outcome {key column : String} {single : Bool} {resolver : Resolver C}
    {nested : List (String × NestedField C)} {arguments : Arguments} {fields : List SelectedField}
    {values : List Json}
    (h : l.outcome context ((NestedField.mk column single resolver nested).loadWith key arguments
      fields) = .ok values) {v : Json} (hv : v ∈ values) :
    v = .null ∨ ∃ (l' : Layer C) (r : Resolution),
      l'.nested = nested ∧ l'.positions = rowFields resolver.paginated fields ∧
      l'.GivenBy resolver ∧ l'.Shows context resolver.paginated r ∧ v = servedJson single r := by
  obtain ⟨batch, u, hreached, -, -⟩ := Load.storeAll_kept context l.table
    (l.loads.takeWhile (·.key ≠ key)) l.batch l.trace
  simp only [outcome, NestedField.key_loadWith, reached, hreached] at h
  obtain ⟨groups, u', children, u'', hgroups, hchildren, hnull | ⟨r, hp, hnodes, hv⟩⟩ :=
    Load.of_mem_values h hv
  · exact .inl hnull
  · obtain ⟨w, hrows⟩ := rows_after context ⟨nested, rowFields resolver.paginated fields,
      resolver.table, groups.values.flatMap Resolution.nodes, u'⟩
    obtain rfl := Except.ok.inj (congrArg Prod.fst (hchildren.symm.trans hrows))
    refine .inr ⟨_, r, rfl, rfl, fun own hown => ?_, ⟨hp, hnodes⟩, hv⟩
    obtain ⟨value, hvalue, hown⟩ := List.mem_flatMap.mp hown
    exact (Resolver.shapes_resolveNested (congrArg Prod.fst hgroups) value hvalue).given own hown

/-- **What a row of a layer holds** in the column of a response key: the fault of the key's load, or
nothing, or a value that shows rows of a layer of their own. -/
theorem column_of_row {row : Row} (hrow : row ∈ l.rows context) {key column : String}
    {first : SelectedField} {rest : List SelectedField} {single : Bool} {resolver : Resolver C}
    {nested : List (String × NestedField C)} (ho : l.occurrences key = first :: rest)
    (hn : Fields.get? l.nested first.name = some (.mk column single resolver nested)) :
    ∃ v, Fields.get? row (loadedColumn key) = some v ∧
      ((∃ fault : Fault, v = fault.toJson) ∨ v = .null ∨ ∃ (l' : Layer C) (r : Resolution),
        l'.nested = nested ∧ l'.positions = rowFields resolver.paginated (first :: rest) ∧
        l'.GivenBy resolver ∧ l'.Shows context resolver.paginated r ∧ v = servedJson single r) := by
  obtain ⟨i, hi⟩ := List.getElem?_of_mem hrow
  obtain ⟨v, hyield, hcolumn⟩ := column_of_first ho hn hi
  refine ⟨v, hcolumn, ?_⟩
  obtain ⟨values, houtcome, hv⟩ | ⟨fault, -, hv⟩ := of_yields hyield
  · exact .inr (of_outcome houtcome (List.mem_of_getElem? hv))
  · exact .inl ⟨fault, hv⟩

end Layer

namespace FieldResolver

variable {C : Type} {r : FieldResolver C} {context : C} {f : SelectedField}

/-- **What a field with a resolver is loaded as**: a value that shows rows of a layer. -/
theorem load_eq_ok {t : Trace} {value : Resolution}
    (h : ((r.load context f).after t).1 = .ok value) :
    ∃ l : Layer C, l.nested = r.nested ∧ l.positions = rowFields r.resolver.paginated [f] ∧
      l.GivenBy r.resolver ∧ l.Shows context r.resolver.paginated value := by
  obtain ⟨resolution, u, hresolve, h⟩ := Run.after_bind_eq_ok h
  obtain ⟨stored, u', hstored, h⟩ := Run.after_bind_eq_ok h
  obtain rfl := Except.ok.inj h
  obtain ⟨w, hrows⟩ := Layer.rows_after context ⟨r.nested, rowFields r.resolver.paginated [f],
    r.resolver.table, resolution.nodes, u⟩
  obtain rfl := Except.ok.inj (congrArg Prod.fst (hstored.symm.trans hrows))
  have hshape := Resolver.shapes_resolve (congrArg Prod.fst hresolve)
  refine ⟨_, rfl, rfl, fun own hown => hshape.given own hown, ?_,
    fun row hrow => Resolution.mem_of_mem_setNodes hrow⟩
  rw [Resolution.isConnection_setNodes]
  exact hshape.paginated

end FieldResolver

/-! ### The values of a scope -/

namespace TypeRef

/-- The values of the type at the bottom of a reference, in a value that fits the reference. -/
def atoms : TypeRef → Json → List Json
  | named _, v => [v]
  | list item, v => v.items.flatMap item.atoms
  | nonNull type, v => type.atoms v

theorem atoms_object {type : TypeRef} {members : List (String × Json)} {v : Json}
    (h : v ∈ type.atoms (.object members)) : v = .object members := by
  induction type with
  | named name => exact List.mem_singleton.mp h
  | list item _ => cases h
  | nonNull type ih => exact ih h

theorem atoms_array {type : TypeRef} {items : List Json} {v : Json}
    (h : v ∈ type.atoms (.array items)) : (type.isList = false ∧ v = .array items) ∨
      ∃ type' : TypeRef, ∃ item ∈ items, v ∈ type'.atoms item := by
  induction type with
  | named name => exact .inl ⟨rfl, List.mem_singleton.mp h⟩
  | list item _ =>
      obtain ⟨own, hown, hv⟩ := List.mem_flatMap.mp h
      exact .inr ⟨item, own, hown, hv⟩
  | nonNull type ih => exact ih h

end TypeRef

/-- The rows of the layer, and all that sources give for the fields below it, are such rows. -/
structure Layer.Supplied {C : Type} (l : Layer C) (given : Row → Prop) : Prop where
  batch : ∀ own ∈ l.batch, given own
  below : ∀ used, NestedField.Uses l.nested used → ∀ row, used.source.Gives row → given row.visible

namespace Scope

variable {C : Type} (context : Option C) (given : Row → Prop)

/-- The row is one of those that are loaded together for these fields, with all that is loaded for
it in the context of the request. -/
def IsRow (nested : List (String × NestedField C)) (positions : List SelectedField) (row : Row) :
    Prop :=
  ∃ c ∈ context, ∃ l : Layer C, l.nested = nested ∧ l.positions = positions ∧ l.Supplied given ∧
    row ∈ l.rows c

/-- The values that a selection in a scope selects on. -/
def Holds : Scope C → Json → Prop
  | rows nested positions, v => ∃ row, v = .object row ∧ IsRow context given nested positions row
  | page nested positions, v => ∀ edges, v.member? "edges" = some edges → ∃ items,
      edges = .array items ∧ ∀ edge ∈ items, ∃ row cursor,
        edge = .object [("node", .object row), ("cursor", cursor)] ∧
          IsRow context given nested positions row
  | edge nested positions, v => ∀ node, v.member? "node" = some node →
      ∃ row, node = .object row ∧ IsRow context given nested positions row
  | other, _ => True

variable {context} {given}

/-- The value of a field whose resolver matches its type. -/
theorem holds_served {c : C} (hc : c ∈ context) {l : Layer C} (hsupplied : l.Supplied given)
    {single paginated : Bool} {r : Resolution} (hshows : l.Shows c paginated r) {type : TypeRef}
    (htype : single = false → paginated = false → type.isList) {v atom : Json}
    (hv : (servedJson single r).fieldValue? = some v) (hatom : atom ∈ type.atoms v) :
    (served single paginated l.nested l.positions).Holds context given atom := by
  have hrow : ∀ row ∈ r.nodes, IsRow context given l.nested l.positions row := fun row hrow =>
    ⟨c, hc, l, rfl, rfl, hsupplied, hshows.2 row hrow⟩
  cases single with
  | true =>
      obtain hnull | ⟨row, hfirst, hobject⟩ := servedJson_single r
      · rw [hnull] at hv
        cases hv
      · rw [hobject] at hv
        obtain rfl := Option.some.inj hv
        exact ⟨row, TypeRef.atoms_object hatom, hrow row hfirst⟩
  | false =>
      have hp := hshows.1
      cases r with
      | rows list =>
          subst hp
          obtain rfl := Option.some.inj hv
          obtain ⟨hnamed, -⟩ | ⟨type', item, hitem, hatom⟩ := TypeRef.atoms_array hatom
          · rw [htype rfl rfl] at hnamed
            cases hnamed
          · obtain ⟨row, hlist, rfl⟩ := List.mem_map.mp hitem
            exact ⟨row, TypeRef.atoms_object hatom, hrow row hlist⟩
      | connection page =>
          subst hp
          obtain rfl := Option.some.inj hv
          obtain rfl := TypeRef.atoms_object hatom
          rintro edges hedges
          obtain rfl := Option.some.inj hedges
          refine ⟨_, rfl, fun edge hedge => ?_⟩
          obtain ⟨own, hown, rfl⟩ := List.mem_map.mp hedge
          exact ⟨own.node, _, rfl, hrow own.node (List.mem_map_of_mem hown)⟩

/-- The value of a column of what a selection selects on. -/
theorem holds_column {scope : Scope C} {parent v atom : Json} {name : String} {type : TypeRef}
    (h : scope.Holds context given parent) (hv : parent.member? name = some v)
    (hatom : atom ∈ type.atoms v) : (scope.belowColumn name).Holds context given atom := by
  cases scope with
  | rows | other => trivial
  | page nested positions =>
      simp only [belowColumn]
      split
      · next hedges =>
          subst hedges
          obtain ⟨items, rfl, hitems⟩ := h v hv
          intro node hnode
          obtain ⟨-, rfl⟩ | ⟨type', item, hitem, hatom⟩ := TypeRef.atoms_array hatom
          · cases hnode
          · obtain ⟨row, cursor, rfl, hrow⟩ := hitems item hitem
            obtain rfl := TypeRef.atoms_object hatom
            obtain rfl := Option.some.inj hnode
            exact ⟨row, rfl, hrow⟩
      · trivial
  | edge nested positions =>
      simp only [belowColumn]
      split
      · next hnode =>
          subst hnode
          obtain ⟨row, rfl, hrow⟩ := h v hv
          exact ⟨row, TypeRef.atoms_object hatom, hrow⟩
      · trivial

end Scope

/-! ### Messages -/

/-- A text that does not begin with a quoted name, whatever follows it. -/
theorem head?_append_ne {s t : String} (hne : s.toList ≠ [])
    (h : s.toList.head? ≠ some '"') : (s ++ t).toList.head? ≠ some '"' := by
  rwa [String.toList_append, List.head?_append_of_ne_nil _ hne]

/-- The message of a fault begins with its kind, never with a quoted name. -/
theorem Fault.head?_message (fault : Fault) : fault.message.toList.head? ≠ some '"' := by
  have hkind : ∃ kind rest, fault.message = kind ++ rest ∧ kind.toList ≠ [] ∧
      kind.toList.head? ≠ some '"' := by
    cases fault with
    | resolver cause => exact ⟨_, _, rfl, by decide⟩
    | argument cause => exact ⟨_, _, rfl, by decide⟩
    | composition cause => exact ⟨_, _, rfl, by decide⟩
    | malformedCursor text => exact ⟨_, _, rfl, by decide⟩
    | page cause => exact ⟨_, _, rfl, by decide⟩
    | source cause => exact ⟨_, _, rfl, by decide⟩
    | schema cause => exact ⟨_, _, String.append_assoc, by decide⟩
  obtain ⟨kind, rest, hmessage, hne, hhead⟩ := hkind
  rw [hmessage]
  exact head?_append_ne hne hhead

/-- The messages that are allowed: those that begin otherwise than with a quoted name, that of a
value that cannot be read as a fault, and what rows given by sources say in place of a fault. -/
structure Allows (allowed : String → Prop) (given : Row → Prop) : Prop where
  unquoted : ∀ message : String, message.toList.head? ≠ some '"' → allowed message
  failed : ∀ key, allowed (Text.quoted key ++ " failed to load")
  stated : ∀ own message, given own → Fields.get? own faultMember = some (.string message) →
    allowed message

namespace Layer

variable {C : Type} {context : C} {l : Layer C} {given : Row → Prop}

theorem exists_kept {row : Row} (h : row ∈ l.rows context) :
    ∃ own ∈ l.batch, own.KeptBut (l.loads.map Load.key) row := by
  obtain ⟨stored, u, hstored, hlength, hkept⟩ :=
    Load.storeAll_kept context l.table l.loads l.batch l.trace
  rw [rows, hstored] at h
  obtain ⟨i, hi, rfl⟩ := List.getElem_of_mem h
  have hbatch : i < l.batch.length := hlength ▸ hi
  obtain ⟨row', hrow', hk⟩ := hkept i _ (List.getElem?_eq_getElem hbatch)
  rw [List.getElem?_eq_getElem hi] at hrow'
  exact ⟨l.batch[i], List.getElem_mem hbatch, Option.some.inj hrow' ▸ hk⟩

/-- The column of a response key that does not occur is the row's own. -/
theorem exists_own_of_occurrences_nil {row : Row} (h : row ∈ l.rows context) {key : String}
    (ho : l.occurrences key = []) :
    ∃ own ∈ l.batch, Fields.get? row (loadedColumn key) = Fields.get? own (loadedColumn key) := by
  obtain ⟨own, hown, hkept⟩ := exists_kept h
  refine ⟨own, hown, hkept _ fun key' hkey' heq => ?_⟩
  obtain ⟨load, hload, rfl⟩ := List.mem_map.mp hkey'
  exact Load.ofFields_of_occurring_nil ho load hload (loadedColumn_injective heq)

/-- A text in the place of a fault was given by a source. -/
theorem given_of_text (hbatch : ∀ own ∈ l.batch, given own) {row : Row}
    (hrow : row ∈ l.rows context) {message : String}
    (h : Fields.get? row faultMember = some (.string message)) :
    ∃ own, given own ∧ Fields.get? own faultMember = some (.string message) := by
  have hmember : faultMember = loadedColumn "error" := rfl
  cases ho : l.occurrences "error" with
  | nil =>
      -- nothing is stored in its place
      obtain ⟨own, hown, hcolumn⟩ := exists_own_of_occurrences_nil hrow ho
      exact ⟨own, hbatch own hown, hcolumn.symm.trans h⟩
  | cons first rest =>
      -- what is loaded in its place is no text
      obtain ⟨⟨column, single, resolver, nested⟩, hn⟩ := exists_of_occurrences ho
      obtain ⟨v, hcolumn, hv⟩ := column_of_row hrow ho hn
      rw [← hmember, h] at hcolumn
      obtain rfl := Option.some.inj hcolumn
      obtain ⟨fault, hv⟩ | hv | ⟨-, r, -, -, -, -, hv⟩ := hv
      · cases hv
      · cases hv
      · exact absurd hv.symm (servedJson_ne_text single r message)

/-- What is loaded below rows is given by sources too. -/
theorem supplied_below {l' : Layer C} (hsupplied : l.Supplied given) {name column : String}
    {single : Bool} {resolver : Resolver C}
    (hn : Fields.get? l.nested name = some (.mk column single resolver l'.nested))
    (hgiven : l'.GivenBy resolver) : l'.Supplied given := by
  have hm := Fields.mem_of_get? hn
  refine ⟨fun own hown => ?_, fun used hused => hsupplied.below used (.deeper hm hused)⟩
  obtain ⟨row, hrow, rfl⟩ := hgiven own hown
  exact hsupplied.below resolver (.own hm) row hrow

end Layer

namespace Execution

variable {C : Type} {context : C} {given : Row → Prop} {allowed : String → Prop}

/-- A value that shows rows of a layer is read as it is, but for a single row that is given a text in
the place of a fault. -/
theorem allowed_of_reading_served (hallows : Allows allowed given) {l : Layer C}
    (hsupplied : l.Supplied given) {single paginated : Bool} {r : Resolution}
    (hshows : l.Shows context paginated r) {key message : String}
    (h : reading key (servedJson single r) = .error message) : allowed message := by
  cases single with
  | true =>
      obtain hnull | ⟨row, hfirst, hobject⟩ := servedJson_single r
      · rw [hnull] at h
        cases h
      · rw [hobject, reading] at h
        split at h
        · cases h
        · next text htext =>
            obtain rfl := Except.error.inj h
            obtain ⟨own, hgiven, hown⟩ :=
              Layer.given_of_text hsupplied.batch (hshows.2 row hfirst) htext
            exact hallows.stated own _ hgiven hown
        · obtain rfl := Except.error.inj h
          exact hallows.failed key
  | false =>
      cases r with
      | rows list => cases h
      | connection page => cases h

end Execution

namespace Scope

variable {C : Type} {context : Option C} {given : Row → Prop} {allowed : String → Prop}

/-- **A nested field that is registered was loaded with its parent row.**  What it reads there
fails with an allowed message, or is a value of its scope. -/
theorem holds_nested (hallows : Allows allowed given) {nested : List (String × NestedField C)}
    {positions : List SelectedField} {parent : Json} {f : SelectedField} {column : String}
    {single : Bool} {resolver : Resolver C} {below : List (String × NestedField C)}
    (hparent : (rows nested positions).Holds context given parent)
    (hf : f ∈ Load.occurring nested positions f.key)
    (hagree : ∀ g ∈ Load.occurring nested positions f.key, g.name = f.name)
    (hn : Fields.get? nested f.name = some (.mk column single resolver below)) :
    ∃ row v, parent = .object row ∧ Fields.get? row (loadedColumn f.key) = some v ∧
      (∀ message, Execution.reading f.key v = .error message → allowed message) ∧
      ∀ type : TypeRef, (single = false → resolver.paginated = false → type.isList) →
        Execution.reading f.key v = .ok v →
        ∀ w, v.fieldValue? = some w → ∀ atom ∈ type.atoms w,
          (belowNested (Load.occurring nested positions f.key) (.mk column single resolver below)).Holds
            context given atom := by
  obtain ⟨row, rfl, c, hc, l, rfl, rfl, hsupplied, hrow⟩ := hparent
  cases ho : Load.occurring l.nested l.positions f.key with
  | nil =>
      rw [ho] at hf
      cases hf
  | cons first rest =>
      have hfirst : first.name = f.name := hagree first (ho ▸ List.mem_cons_self)
      rw [← hfirst] at hn
      obtain ⟨v, hcolumn, hv⟩ := Layer.column_of_row hrow ho hn
      refine ⟨row, v, rfl, hcolumn, ?_, ?_⟩
      · intro message hmessage
        obtain ⟨fault, rfl⟩ | rfl | ⟨l', r, rfl, -, hgiven, hshows, rfl⟩ := hv
        · rw [Execution.reading_fault] at hmessage
          obtain rfl := Except.error.inj hmessage
          exact hallows.unquoted _ fault.head?_message
        · cases hmessage
        · exact Execution.allowed_of_reading_served hallows
            (Layer.supplied_below hsupplied hn hgiven) hshows hmessage
      · intro type htype hread w hw atom hatom
        obtain ⟨fault, rfl⟩ | rfl | ⟨l', r, rfl, hpositions, hgiven, hshows, rfl⟩ := hv
        · rw [Execution.reading_fault] at hread
          cases hread
        · cases hw
        · have hbelow := Layer.supplied_below hsupplied hn hgiven
          rw [belowNested, ← hpositions]
          exact holds_served hc hbelow hshows htype hw hatom

end Scope

end RelaySql
