import RelaySql.Proofs.Graph.Alone
import RelaySql.Proofs.Graph.Answers

/-!
# Execution — values beside those where sources fail

A request is executed twice: with the sources as they are, and with some that fail.  A value that is
selected on in a scope stands beside another in the second execution, which has the same shape and
the same columns, but for those of the nested fields whose sources fail.

* `Scope.Beside`: what a selection in a scope selects on, in both executions.
* `Scope.beside_served`, `Scope.beside_column`, `Scope.beside_nested`: the values of fields with a
  resolver, of columns and of nested fields stand beside each other in the scopes below.
-/

namespace RelaySql

/-- Nothing that is loaded is missing in only one of two rows in the same place. -/
theorem Layer.none_of_pairs {C : Type} {context : C} {failures : Failures C} {l : Layer C}
    {t : Trace} (hstateless : l.Stateless) {row row' : Row}
    (h : l.Pairs context failures t row row') {column : String}
    (hnone : Fields.get? row column = none) : Fields.get? row' column = none := by
  by_cases hloaded : ∃ key, l.occurrences key ≠ [] ∧ loadedColumn key = column
  · obtain ⟨key, hne, rfl⟩ := hloaded
    obtain ⟨first, rest, ho⟩ := List.exists_cons_of_ne_nil hne
    obtain ⟨⟨column, single, resolver, nested⟩, hn⟩ := exists_of_occurrences ho
    obtain ⟨v, v', hv, -, -⟩ := column_failing hstateless h ho hn
    rw [hnone] at hv
    cases hv
  · push Not at hloaded
    rw [← column_unloaded h hloaded, hnone]

/-! ### Rows that are given back -/

section

variable {R : Row → Row → Prop} {rows rows' : List Row}

theorem Connection.forall₂_setNodes (page : Connection Row) (h : List.Forall₂ R rows rows') :
    List.Forall₂ (fun e e' : Edge Row => e.cursor = e'.cursor ∧ R e.node e'.node)
      (page.setNodes rows).edges (page.setNodes rows').edges := by
  obtain ⟨edges, info⟩ := page
  simp only [setNodes]
  induction h generalizing edges with
  | nil => cases edges <;> exact .nil
  | cons hrow _ ih =>
      cases edges with
      | nil => exact .nil
      | cons e edges => exact .cons ⟨rfl, hrow⟩ (ih edges)

theorem Resolution.forall₂_nodes (own : Resolution) (h : List.Forall₂ R rows rows') :
    List.Forall₂ R (own.setNodes rows).nodes (own.setNodes rows').nodes := by
  cases own with
  | rows list => exact h
  | connection page =>
      refine List.forall₂_map_left_iff.mpr (List.forall₂_map_right_iff.mpr ?_)
      exact (page.forall₂_setNodes h).imp fun _ _ he => he.2

end

namespace Execution

theorem reading_eq_ok_iff {key : String} {v w : Json} :
    reading key v = .ok w ↔ v = w ∧ v.member? faultMember = none := by
  rw [reading]
  constructor
  · intro h
    split at h
    · next hnone => exact ⟨Except.ok.inj h, hnone⟩
    · cases h
    · cases h
  · rintro ⟨rfl, hnone⟩
    rw [hnone]

end Execution

namespace Scope

variable {C : Type}

/-- The fields that are selected on the rows of a scope, at all their places. -/
def selected : Scope C → List SelectedField
  | rows _ positions => positions.flatMap SelectedField.children
  | page _ positions => positions.flatMap SelectedField.children
  | edge _ positions => positions.flatMap SelectedField.children
  | other => []

section

variable (context : Option C) (failures : Failures C)

/-- The rows are in the same place of a layer that is loaded for these fields in the context of the
request. -/
def RowBeside (nested : List (String × NestedField C)) (positions : List SelectedField)
    (row row' : Row) : Prop :=
  ∃ c ∈ context, ∃ (l : Layer C) (t : Trace), l.nested = nested ∧ l.positions = positions ∧
    l.Stateless ∧ l.Pairs c failures t row row'

/-- The edges have the same cursor, and their nodes are rows in the same place. -/
def EdgeBeside (nested : List (String × NestedField C)) (positions : List SelectedField)
    (v v' : Json) : Prop :=
  ∃ row row' cursor, v = .object [("node", .object row), ("cursor", cursor)] ∧
    v' = .object [("node", .object row'), ("cursor", cursor)] ∧
    RowBeside context failures nested positions row row'

/-- What is selected on in a scope, beside the same where sources fail. -/
def Same : Scope C → Json → Json → Prop
  | rows nested positions, v, v' => ∃ row row', v = .object row ∧ v' = .object row' ∧
      RowBeside context failures nested positions row row'
  | page nested positions, v, v' => ∃ edges edges' info,
      v = .object [("edges", .array edges), ("pageInfo", info)] ∧
      v' = .object [("edges", .array edges'), ("pageInfo", info)] ∧
      List.Forall₂ (EdgeBeside context failures nested positions) edges edges'
  | edge nested positions, v, v' => EdgeBeside context failures nested positions v v'
  | other, v, v' => v = v'

/-- What is selected on in a scope, or a list of it, beside the same where sources fail. -/
def Beside (scope : Scope C) (v v' : Json) : Prop :=
  scope.Same context failures v v' ∨ ∃ items items', v = .array items ∧ v' = .array items' ∧
    List.Forall₂ (scope.Same context failures) items items'

end

variable {context : Option C} {failures : Failures C} {scope : Scope C} {v v' : Json}

theorem rel_beside_other (v : Option Json) :
    Option.Rel ((other : Scope C).Beside context failures) v v := by
  cases v with
  | none => exact .none
  | some v => exact .some (.inl rfl)

/-- The items of a list are beside those of the list that is beside it. -/
theorem items_beside {items : List Json} (h : scope.Beside context failures (.array items) v') :
    ∃ items', v' = .array items' ∧ List.Forall₂ (scope.Beside context failures) items items' := by
  obtain h | ⟨own, items', hown, rfl, hitems⟩ := h
  · cases scope with
    | rows nested positions =>
        obtain ⟨row, row', h, -⟩ := h
        cases h
    | page nested positions =>
        obtain ⟨edges, edges', info, h, -⟩ := h
        cases h
    | edge nested positions =>
        obtain ⟨row, row', cursor, h, -⟩ := h
        cases h
    | other =>
        obtain rfl := h
        exact ⟨items, rfl, List.forall₂_same.mpr fun v _ => .inl rfl⟩
  · obtain rfl := Json.array.inj hown
    exact ⟨items', rfl, hitems.imp fun _ _ h => .inl h⟩

/-! ### Where nothing is loaded -/

theorem eq_of_rowBeside {nested : List (String × NestedField C)} {positions : List SelectedField}
    {row row' : Row} (hnone : positions.flatMap SelectedField.children = [])
    (h : RowBeside context failures nested positions row row') : row = row' := by
  obtain ⟨c, -, l, t, -, rfl, -, i, hi, hi'⟩ := h
  have hrows : ∀ l : Layer C, l.positions.flatMap SelectedField.children = [] →
      l.rows c = l.batch := by
    intro l hnone
    rw [Layer.rows, Layer.loads, Load.ofFields, hnone]
    rfl
  rw [hrows l hnone] at hi
  rw [hrows (l.failing failures t) hnone] at hi'
  exact Option.some.inj (hi.symm.trans hi')

theorem eq_of_edgeBeside {nested : List (String × NestedField C)} {positions : List SelectedField}
    (hnone : positions.flatMap SelectedField.children = [])
    (h : EdgeBeside context failures nested positions v v') : v = v' := by
  obtain ⟨row, row', cursor, rfl, rfl, hrow⟩ := h
  rw [eq_of_rowBeside hnone hrow]

theorem eq_of_same (hnone : scope.selected = []) (h : scope.Same context failures v v') : v = v' := by
  cases scope with
  | rows nested positions =>
      obtain ⟨row, row', rfl, rfl, hrow⟩ := h
      rw [eq_of_rowBeside hnone hrow]
  | page nested positions =>
      obtain ⟨edges, edges', info, rfl, rfl, hedges⟩ := h
      have heq := hedges.imp fun _ _ => eq_of_edgeBeside hnone
      rw [List.forall₂_eq_eq_eq] at heq
      rw [heq]
  | edge nested positions => exact eq_of_edgeBeside hnone h
  | other => exact h

/-- Where nothing is selected on rows, the values are the same. -/
theorem eq_of_beside (hnone : scope.selected = []) (h : scope.Beside context failures v v') :
    v = v' := by
  obtain h | ⟨items, items', rfl, rfl, hitems⟩ := h
  · exact eq_of_same hnone h
  · have heq := hitems.imp fun _ _ => eq_of_same hnone
    rw [List.forall₂_eq_eq_eq] at heq
    rw [heq]

/-! ### The values of fields -/

/-- **The value of a field with a resolver**, in the scope below the field. -/
theorem beside_served {c : C} (hc : c ∈ context) {single paginated : Bool}
    {nested : List (String × NestedField C)} {positions : List SelectedField}
    (h : ServedBeside c failures single paginated nested positions v v') :
    Option.Rel ((served single paginated nested positions).Beside context failures)
      v.fieldValue? v'.fieldValue? := by
  obtain ⟨l, t, own, rows, rows', rfl, rfl, hstateless, hshape, hrows, rfl, rfl⟩ := h
  have hbeside := hrows.imp fun row row' hpairs =>
    show RowBeside context failures l.nested l.positions row row' from
      ⟨c, hc, l, t, rfl, rfl, hstateless, hpairs⟩
  cases single with
  | true =>
      -- the first row, if there is one
      have hnodes := own.forall₂_nodes hbeside
      simp only [servedJson, Resolution.firstJson, if_true]
      generalize (own.setNodes rows).nodes = nodes at hnodes ⊢
      generalize (own.setNodes rows').nodes = nodes' at hnodes ⊢
      cases hnodes with
      | nil => exact .none
      | cons hrow _ => exact .some (.inl ⟨_, _, rfl, rfl, hrow⟩)
  | false =>
      subst hshape
      cases own with
      | rows list =>
          refine .some (.inr ⟨_, _, rfl, rfl, ?_⟩)
          refine List.forall₂_map_left_iff.mpr (List.forall₂_map_right_iff.mpr ?_)
          exact hbeside.imp fun row row' hrow => ⟨row, row', rfl, rfl, hrow⟩
      | connection page =>
          refine .some (.inl ⟨_, _, _, rfl, rfl, ?_⟩)
          refine List.forall₂_map_left_iff.mpr (List.forall₂_map_right_iff.mpr ?_)
          refine (page.forall₂_setNodes hbeside).imp fun e e' he => ?_
          exact ⟨e.node, e'.node, _, rfl, by rw [he.1], he.2⟩

/-- **The value of a column**, in the scope below it. -/
theorem beside_column {parent parent' : Json} {name : String} (hname : IsOrdinary name)
    (h : scope.Beside context failures parent parent') :
    Option.Rel ((scope.belowColumn name).Beside context failures)
      ((parent.member? name).bind Json.fieldValue?) ((parent'.member? name).bind Json.fieldValue?) := by
  obtain h | ⟨items, items', rfl, rfl, -⟩ := h
  swap
  · exact .none
  cases scope with
  | rows nested positions =>
      obtain ⟨row, row', rfl, rfl, c, -, l, t, -, -, -, hpairs⟩ := h
      have hcolumn : Json.member? (.object row) name = Json.member? (.object row') name :=
        Layer.column_unloaded hpairs fun key _ => hname.ne_loaded key
      rw [hcolumn]
      exact rel_beside_other _
  | page nested positions =>
      obtain ⟨edges, edges', info, rfl, rfl, hedges⟩ := h
      simp only [Json.member?, Fields.get?, belowColumn]
      by_cases hedge : name = "edges"
      · subst hedge
        exact .some (.inr ⟨edges, edges', rfl, rfl, hedges⟩)
      · rw [if_neg hedge, if_neg (Ne.symm hedge), if_neg (Ne.symm hedge)]
        exact rel_beside_other _
  | edge nested positions =>
      obtain ⟨row, row', cursor, rfl, rfl, hrow⟩ := h
      simp only [Json.member?, Fields.get?, belowColumn]
      by_cases hnode : name = "node"
      · subst hnode
        exact .some (.inl ⟨row, row', rfl, rfl, hrow⟩)
      · rw [if_neg hnode, if_neg (Ne.symm hnode), if_neg (Ne.symm hnode)]
        exact rel_beside_other _
  | other =>
      obtain rfl := h
      exact rel_beside_other _

/-- A value of a field with a resolver has no member in the place of a fault, if it has none where
sources do not fail. -/
theorem member?_fault_of_served {c : C} {single paginated : Bool}
    {nested : List (String × NestedField C)} {positions : List SelectedField}
    (h : ServedBeside c failures single paginated nested positions v v')
    (hnone : v.member? faultMember = none) : v'.member? faultMember = none := by
  obtain ⟨l, t, own, rows, rows', rfl, rfl, hstateless, hshape, hrows, rfl, rfl⟩ := h
  cases single with
  | true =>
      have hnodes := own.forall₂_nodes hrows
      simp only [servedJson, Resolution.firstJson, if_true] at hnone ⊢
      generalize (own.setNodes rows).nodes = nodes at hnodes hnone
      generalize (own.setNodes rows').nodes = nodes' at hnodes ⊢
      cases hnodes with
      | nil => rfl
      | cons hrow _ => exact Layer.none_of_pairs hstateless hrow hnone
  | false => cases own <;> rfl

/-- What a nested field reads where sources fail, beside the value that it reads otherwise: the same,
if nothing is loaded in its place; the fault of its source, if that fails; and otherwise a value beside
it in the scope below. -/
inductive ReadBeside (context : Option C) (failures : Failures C) (scope : Scope C)
    (f : SelectedField) (v : Json) : Except String Json → Prop where
  | unloaded (hloaded : scope.loaded? f = none) : ReadBeside context failures scope f v (.ok v)
  | failed {n : NestedField C} (hloaded : scope.loaded? f = some n)
      {failure : List Statement → Statement → SourceFault}
      (hfailure : failures n.resolver = some failure) (history : List Statement) (s : Statement) :
      ReadBeside context failures scope f v (.error (Fault.source (failure history s)).message)
  | loaded {n : NestedField C} (hloaded : scope.loaded? f = some n)
      (hnone : failures n.resolver = none) {w : Json}
      (h : Option.Rel ((belowNested (scope.occurrences f) n).Beside context failures)
        v.fieldValue? w.fieldValue?) :
      ReadBeside context failures scope f v (.ok w)

/-- What a nested field reads from its row. -/
theorem readBeside_row {c : C} (hc : c ∈ context) {l : Layer C} {t : Trace}
    (hstateless : l.Stateless) {row row' : Row} (hpairs : l.Pairs c failures t row row')
    {f : SelectedField} (hnames : ∀ g ∈ l.occurrences f.key, g.name = f.name)
    (hv : Execution.loadedValue (.object row) f.key = .ok v) :
    ReadBeside context failures (rows l.nested l.positions) f v
      (Execution.loadedValue (.object row') f.key) := by
  cases ho : l.occurrences f.key with
  | nil =>
      -- nothing is loaded in the place of the field
      have hcolumn : Fields.get? row (loadedColumn f.key) =
          Fields.get? row' (loadedColumn f.key) := by
        refine Layer.column_unloaded hpairs fun key hkey heq => hkey ?_
        rw [loadedColumn_injective heq]
        exact ho
      rw [Execution.loadedValue, Json.member?, hcolumn] at hv
      rw [Execution.loadedValue, Json.member?, hv]
      exact .unloaded (if_pos ho)
  | cons first rest =>
      have hm : first ∈ l.occurrences f.key := ho ▸ List.mem_cons_self
      obtain ⟨⟨column, single, resolver, below⟩, hn⟩ := Layer.exists_of_occurrences ho
      have hloaded : (rows l.nested l.positions).loaded? f =
          some (.mk column single resolver below) := by
        have hne : Load.occurring l.nested l.positions f.key ≠ [] := List.ne_nil_of_mem hm
        rw [loaded?, if_neg hne, ← hnames first hm, hn]
      have hoccurrences : (rows l.nested l.positions).occurrences f = first :: rest := ho
      obtain ⟨held, held', hcolumn, hcolumn', hbeside⟩ :=
        Layer.column_failing hstateless hpairs ho hn
      rw [Execution.loadedValue_of_column hcolumn, Execution.reading_eq_ok_iff] at hv
      obtain ⟨rfl, hfault⟩ := hv
      rw [Execution.loadedValue_of_column hcolumn']
      cases hbeside with
      | fault => cases hfault
      | failed hfailure history s => exact .failed hloaded hfailure history s
      | none hnone => exact .loaded hloaded hnone .none
      | served hnone hserved =>
          have hread : Execution.reading f.key held' = .ok held' :=
            Execution.reading_eq_ok_iff.mpr ⟨rfl, member?_fault_of_served hserved hfault⟩
          have hbelow := beside_served hc hserved
          rw [hread]
          refine .loaded hloaded hnone ?_
          rwa [belowNested, hoccurrences]

/-- **What a nested field reads from its parent**, beside what it reads where sources fail. -/
theorem beside_nested {f : SelectedField} {parent parent' : Json}
    (hnames : ∀ g ∈ scope.occurrences f, g.name = f.name)
    (h : scope.Beside context failures parent parent')
    (hv : Execution.loadedValue parent f.key = .ok v) :
    ReadBeside context failures scope f v (Execution.loadedValue parent' f.key) := by
  -- nothing is loaded for pages and edges
  have hcolumns : ∀ (name name' : String) (a b : Json), IsOrdinary name → IsOrdinary name' →
      Fields.get? [(name, a), (name', b)] (loadedColumn f.key) = none := by
    intro name name' a b hname hname'
    rw [Fields.get?, if_neg (hname.ne_loaded f.key).symm, Fields.get?,
      if_neg (hname'.ne_loaded f.key).symm, Fields.get?]
  obtain h | ⟨items, items', rfl, rfl, -⟩ := h
  swap
  · cases hv
  cases scope with
  | rows nested positions =>
      obtain ⟨row, row', rfl, rfl, c, hc, l, t, rfl, rfl, hstateless, hpairs⟩ := h
      exact readBeside_row hc hstateless hpairs hnames hv
  | page nested positions =>
      obtain ⟨edges, edges', info, rfl, rfl, -⟩ := h
      rw [Execution.loadedValue_of_no_column (hcolumns _ _ _ _ (by decide) (by decide))] at hv
      cases hv
  | edge nested positions =>
      obtain ⟨row, row', cursor, rfl, rfl, -⟩ := h
      rw [Execution.loadedValue_of_no_column (hcolumns _ _ _ _ (by decide) (by decide))] at hv
      cases hv
  | other =>
      obtain rfl := h
      rw [hv]
      exact .unloaded rfl

end Scope

end RelaySql
