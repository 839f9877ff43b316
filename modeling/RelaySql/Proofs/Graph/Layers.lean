import RelaySql.Graph.Execution
import RelaySql.Proofs.Graph.Planned
import RelaySql.Proofs.Graph.Stored

/-!
# Loading — the rows of a response, layer by layer

The rows that are loaded together make a layer: the rows of one table under one field, with the
fields that select on them at all their places in the response.  Each load of a layer leads to the
level of its own rows.

* `Layer.of_yields`: what a load yields for a row is the value that it came to, or its fault.
* `Layer.column_of_first`: the column of a response key holds what the load of the key's first
  occurrence on the layer yielded for the row.
* `ServedAt.mem_rows`: every row that a response shows is a row of its layer, as it was stored.
-/

namespace RelaySql

/-! ### Rows in values -/

namespace Json

/-- The items of an array. -/
def items : Json → List Json
  | array items => items
  | _ => []

/-- The columns of an object. -/
def row? : Json → Option Row
  | object columns => some columns
  | _ => none

/-- The rows that a response shows of a loaded value: the value itself, the nodes of its edges, or
its items. -/
def servedRows (single paginated : Bool) (v : Json) : List Row :=
  if single then v.row?.toList
  else if paginated then
    (((v.member? "edges").map items).getD []).filterMap fun edge => (edge.member? "node").bind row?
  else v.items.filterMap row?

theorem servedRows_null (single paginated : Bool) : null.servedRows single paginated = [] := by
  cases single <;> cases paginated <;> rfl

end Json

/-- The fields that select on the rows shown of a field's value. -/
def servingFields (single paginated : Bool) (f : SelectedField) : List SelectedField :=
  if single then [f] else rowFields paginated [f]

namespace Resolution

theorem mem_of_mem_setNodes {r : Resolution} {rows : List Row} {row : Row}
    (h : row ∈ (r.setNodes rows).nodes) : row ∈ rows := by
  cases r with
  | rows _ => exact h
  | connection page =>
      obtain ⟨edge, he, rfl⟩ := List.mem_map.mp h
      obtain ⟨i, hi, rfl⟩ := List.getElem_of_mem he
      simp only [Connection.setNodes, List.getElem_zipWith]
      exact List.getElem_mem _

/-- The rows shown of a list or a page are rows of it. -/
theorem mem_nodes_of_served {r : Resolution} {paginated : Bool} {row : Row}
    (h : row ∈ r.toJson.servedRows false paginated) : row ∈ r.nodes := by
  cases r with
  | rows list =>
      cases paginated with
      | true => cases h
      | false =>
          obtain ⟨v, hv, hrow⟩ := List.mem_filterMap.mp h
          obtain ⟨own, ho, rfl⟩ := List.mem_map.mp hv
          obtain rfl := Option.some.inj hrow
          exact ho
  | connection page =>
      cases paginated with
      | false => cases h
      | true =>
          obtain ⟨v, hv, hrow⟩ := List.mem_filterMap.mp h
          obtain ⟨edge, he, rfl⟩ := List.mem_map.mp hv
          obtain rfl := Option.some.inj hrow
          exact List.mem_map_of_mem he

theorem mem_nodes_of_first {r : Resolution} {paginated : Bool} {row : Row}
    (h : row ∈ r.firstJson.servedRows true paginated) : row ∈ r.nodes := by
  simp only [firstJson] at h
  cases hh : r.nodes.head? with
  | none =>
      rw [hh] at h
      cases h
  | some first =>
      rw [hh] at h
      rw [List.mem_singleton.mp h]
      exact List.mem_of_head? hh

theorem mem_of_mem_refill {groups : Fields Resolution} {all : List Row} {key : String}
    {r : Resolution} (h : (refill groups all).get? key = some r) {row : Row} (hm : row ∈ r.nodes) :
    row ∈ all := by
  induction groups generalizing all with
  | nil => cases h
  | cons group rest ih =>
      obtain ⟨k, first⟩ := group
      simp only [refill, Fields.get?] at h
      split at h
      · obtain rfl := Option.some.inj h
        exact List.mem_of_mem_take (mem_of_mem_setNodes hm)
      · exact List.mem_of_mem_drop (ih h)

end Resolution

namespace Execution

/-- What is read from the column of a loaded field. -/
def reading (key : String) (v : Json) : Except String Json :=
  match v.member? faultMember with
  | none => .ok v
  | some (.string message) => .error message
  | some _ => .error (Text.quoted key ++ " failed to load")

theorem loadedValue_of_column {row : Row} {key : String} {v : Json}
    (h : Fields.get? row (loadedColumn key) = some v) :
    loadedValue (.object row) key = reading key v := by
  have hm : Json.member? (.object row) (loadedColumn key) = some v := h
  simp only [loadedValue, hm]
  rfl

theorem loadedValue_of_no_column {row : Row} {key : String}
    (h : Fields.get? row (loadedColumn key) = none) :
    loadedValue (.object row) key =
      .error (Text.quoted key ++ " was not loaded with its parent row") := by
  have hm : Json.member? (.object row) (loadedColumn key) = none := h
  simp only [loadedValue, hm]

theorem reading_fault (key : String) (fault : Fault) :
    reading key fault.toJson = .error fault.message := rfl

theorem reading_eq_ok {key : String} {v v' : Json} (h : reading key v = .ok v') : v = v' := by
  simp only [reading] at h
  split at h
  · exact Except.ok.inj h
  · cases h
  · cases h

end Execution

namespace NestedField

variable {C : Type}

/-- The load of a nested field with these arguments, and with what its occurrences select below. -/
def loadWith : NestedField C → String → Arguments → List SelectedField → Load C
  | mk column single resolver nested, key, arguments, occurrences =>
    .mk key column single resolver arguments
      (Load.ofFields (planners nested) (rowFields resolver.paginated occurrences))

theorem planner_cons (n : NestedField C) (key : String) (first : SelectedField)
    (rest : List SelectedField) :
    n.planner key (first :: rest) = n.loadWith key first.arguments (first :: rest) := by
  cases n
  rfl

theorem key_loadWith (n : NestedField C) (key : String) (arguments : Arguments)
    (fields : List SelectedField) : (n.loadWith key arguments fields).key = key := by
  cases n
  rfl

end NestedField

/-! ### Layers -/

/-- Rows that are loaded together. -/
structure Layer (C : Type) where
  /-- The fields registered for the rows. -/
  nested : List (String × NestedField C)
  /-- The fields that select on the rows, at all their places in the response. -/
  positions : List SelectedField
  table : String
  batch : List Row
  /-- What happened before. -/
  trace : Trace

namespace Layer

variable {C : Type} (context : C) (l : Layer C)

/-- The loads that the layer plans. -/
def loads : List (Load C) := Load.ofFields (NestedField.planners l.nested) l.positions

/-- The occurrences of a response key on the layer. -/
def occurrences (key : String) : List SelectedField := Load.occurring l.nested l.positions key

/-- The rows of the layer with all that was loaded for them. -/
def rows : List Row :=
  match ((Load.storeAll context l.table l.batch l.loads).after l.trace).1 with
  | .ok stored => stored
  | .error _ => []

/-- The rows, and what happened, when the load of a response key has its turn. -/
def reached (key : String) : Except Fault (List Row) × Trace :=
  (Load.storeAll context l.table l.batch (l.loads.takeWhile (·.key ≠ key))).after l.trace

/-- What a load yields for the rows, in the turn of its response key. -/
def yields (load : Load C) : List Json :=
  match l.reached context load.key with
  | (.ok batch, u) => load.yielded context l.table batch u
  | (.error _, _) => []

/-- What a load comes to, in the turn of its response key: a value for each row, or its fault. -/
def outcome (load : Load C) : Except Fault (List Json) :=
  match l.reached context load.key with
  | (.ok batch, u) => ((load.values context l.table batch).after u).1
  | (.error fault, _) => .error fault

theorem rows_after : ∃ u, (Load.storeAll context l.table l.batch l.loads).after l.trace =
    (.ok (l.rows context), u) := by
  obtain ⟨stored, u, h, -, -⟩ := Load.storeAll_kept context l.table l.loads l.batch l.trace
  exact ⟨u, by rw [rows, h]⟩

theorem length_rows : (l.rows context).length = l.batch.length := by
  obtain ⟨stored, u, h, hlength, -⟩ := Load.storeAll_kept context l.table l.loads l.batch l.trace
  rw [rows, h]
  exact hlength

/-- The rows keep their places, and the columns that nothing is loaded into. -/
theorem kept {i : Nat} {row : Row} (h : l.batch[i]? = some row) :
    ∃ row', (l.rows context)[i]? = some row' ∧ row.KeptBut (l.loads.map Load.key) row' := by
  obtain ⟨stored, u, hstored, -, hkept⟩ :=
    Load.storeAll_kept context l.table l.loads l.batch l.trace
  rw [rows, hstored]
  exact hkept i row h

variable {context} {l}

/-- What a load yields for a row is the value that it came to, or its fault. -/
theorem of_yields {load : Load C} {i : Nat} {v : Json}
    (h : (l.yields context load)[i]? = some v) :
    (∃ values, l.outcome context load = .ok values ∧ values[i]? = some v) ∨
      ∃ fault, l.outcome context load = .error fault ∧ v = fault.toJson := by
  rcases hreached : l.reached context load.key with ⟨fault | batch, u⟩
  · simp [yields, hreached] at h
  · simp only [yields, outcome, hreached, Load.yielded] at h ⊢
    split at h
    · next values hvalues => exact .inl ⟨values, hvalues, h⟩
    · next fault hfault =>
        obtain ⟨parent, -, rfl⟩ := List.mem_map.mp (List.mem_of_getElem? h)
        exact .inr ⟨fault, hfault, rfl⟩

/-- The first occurrence of a response key is of a field that is registered. -/
theorem exists_of_occurrences {key : String} {first : SelectedField} {rest : List SelectedField}
    (ho : l.occurrences key = first :: rest) : ∃ n, Fields.get? l.nested first.name = some n := by
  have hm : first ∈ l.occurrences key := ho ▸ List.mem_cons_self
  exact Option.isSome_iff_exists.mp (Load.mem_occurring.mp hm).2.2

/-- **The column of a response key** holds what the load of the key's first occurrence yielded. -/
theorem column_of_first {key : String} {first : SelectedField} {rest : List SelectedField}
    (ho : l.occurrences key = first :: rest) {n : NestedField C}
    (hn : Fields.get? l.nested first.name = some n) {i : Nat} {row : Row}
    (hrow : (l.rows context)[i]? = some row) :
    ∃ v, (l.yields context (n.loadWith key first.arguments (first :: rest)))[i]? = some v ∧
      Fields.get? row (loadedColumn key) = some v := by
  obtain ⟨before, after, hloads, hbefore, hafter⟩ := Load.ofFields_split ho hn
  rw [n.planner_cons] at hloads
  have hkey := n.key_loadWith key first.arguments (first :: rest)
  -- the loads planned before it are those before its turn
  have hturn : l.loads.takeWhile (·.key ≠ key) = before := by
    rw [loads, hloads, List.takeWhile_append_of_pos (by simpa using hbefore),
      List.takeWhile_cons_of_neg (by simp [hkey]), List.append_nil]
  obtain ⟨batch, u, hbatch, -, -⟩ := Load.storeAll_kept context l.table before l.batch l.trace
  obtain ⟨u', hstored⟩ := l.rows_after context
  rw [loads, hloads] at hstored
  obtain ⟨v, hv, hcolumn⟩ := Load.storeAll_column hbatch
    (fun other ho => by
      rw [hkey]
      exact hafter other ho) (congrArg Prod.fst hstored) hrow
  rw [hkey] at hcolumn
  refine ⟨v, ?_, hcolumn⟩
  simp only [yields, reached, hkey, hturn, hbatch]
  exact hv

end Layer

namespace Load

variable {C : Type} {context : C} {table key column : String} {single : Bool}
  {resolver : Resolver C} {arguments : Arguments} {below : List (Load C)}

/-- The rows that a response shows of what a load yields are those that were loaded below it. -/
theorem mem_of_served {batch children : List Row} {u u' u'' : Trace} {groups : Fields Resolution}
    (hgroups : (resolver.resolveNested arguments context ⟨table, column, batch⟩).after u =
      (.ok groups, u'))
    (hchildren : (storeAll context resolver.table (groups.values.flatMap Resolution.nodes)
      below).after u' = (.ok children, u''))
    {v v' : Json}
    (hv : v ∈ (mk key column single resolver arguments below).yielded context table batch u)
    (hread : Execution.reading key v = .ok v') {row : Row}
    (hrow : row ∈ v'.servedRows single resolver.paginated) : row ∈ children := by
  obtain rfl := Execution.reading_eq_ok hread
  have hvalues : ((mk key column single resolver arguments below).values context table batch).after
      u = (valuesOf ⟨table, column, batch⟩ single (Resolution.refill groups children), u'') := by
    simp only [values, Run.after_bind, hgroups, hchildren, Run.after_lift]
  simp only [yielded, hvalues] at hv
  split at hv
  · next read hread' =>
      obtain ⟨parent, -, hparent⟩ := Except.exists_of_mem_mapM hread' hv
      obtain ⟨text, -, hparent⟩ := Except.bind_eq_ok.mp hparent
      obtain rfl := Except.ok.inj hparent
      split at hrow
      · rw [Json.servedRows_null] at hrow
        cases hrow
      · next r hr =>
          refine Resolution.mem_of_mem_refill hr ?_
          cases single with
          | true => exact Resolution.mem_nodes_of_first hrow
          | false => exact Resolution.mem_nodes_of_served hrow
  · obtain ⟨parent, -, rfl⟩ := List.mem_map.mp hv
    rw [Execution.reading_fault] at hread
    cases hread

end Load

/-! ### Rows of a response -/

/-- The response to a field shows the row, and a field of the query selects on it there: the row is
one of those that the field resolves to, or it is one of those that were loaded below another. -/
inductive ServedAt {C : Type} (context : C) (r : FieldResolver C) (f : SelectedField) (t : Trace) :
    Layer C → SelectedField → Row → Prop where
  | top {resolution value : Resolution} {u : Trace} {field : SelectedField} {row : Row}
      (hresolve : (r.resolver.resolve f.arguments context).after t = (.ok resolution, u))
      (hload : ((r.load context f).after t).1 = .ok value)
      (hrow : row ∈ value.toJson.servedRows false r.resolver.paginated)
      (hfield : field ∈ servingFields false r.resolver.paginated f) :
      ServedAt context r f t ⟨r.nested, rowFields r.resolver.paginated [f], r.resolver.table,
        resolution.nodes, u⟩ field row
  | under {l : Layer C} {field below g first : SelectedField} {rest : List SelectedField}
      {row child : Row} {batch : List Row} {column : String} {single : Bool}
      {resolver : Resolver C} {nested : List (String × NestedField C)} {u u' : Trace}
      {groups : Fields Resolution} {v : Json}
      (hserved : ServedAt context r f t l field row) (hg : g ∈ field.children)
      (hfirst : l.occurrences g.key = first :: rest)
      (hn : Fields.get? l.nested first.name = some (.mk column single resolver nested))
      (hreached : l.reached context g.key = (.ok batch, u))
      (hgroups : (resolver.resolveNested first.arguments context ⟨l.table, column, batch⟩).after u =
        (.ok groups, u'))
      (hv : Execution.loadedValue (.object row) g.key = .ok v)
      (hchild : child ∈ v.servedRows single resolver.paginated)
      (hbelow : below ∈ servingFields single resolver.paginated g) :
      ServedAt context r f t ⟨nested, rowFields resolver.paginated (first :: rest), resolver.table,
        groups.values.flatMap Resolution.nodes, u'⟩ below child

namespace ServedAt

variable {C : Type} {context : C} {r : FieldResolver C} {f : SelectedField} {t : Trace}

/-- **Every row that a response shows** is a row of its layer, as it was stored. -/
theorem mem_rows {l : Layer C} {field : SelectedField} {row : Row}
    (h : ServedAt context r f t l field row) : row ∈ l.rows context := by
  induction h with
  | top hresolve hload hrow _ =>
      -- loading a field begins with its resolution, which is the one given
      obtain ⟨resolution, u, hres, hload⟩ := Run.after_bind_eq_ok hload
      obtain ⟨rfl, rfl⟩ := Prod.mk.inj (hres.symm.trans hresolve) |>.imp_left Except.ok.inj
      obtain ⟨stored, u', hstored, hvalue⟩ := Run.after_bind_eq_ok hload
      obtain rfl := Except.ok.inj hvalue
      obtain ⟨u'', hrows⟩ := Layer.rows_after context ⟨r.nested,
        rowFields r.resolver.paginated [f], r.resolver.table, resolution.nodes, u⟩
      obtain rfl := Except.ok.inj (congrArg Prod.fst (hstored.symm.trans hrows))
      exact Resolution.mem_of_mem_setNodes (Resolution.mem_nodes_of_served hrow)
  | @under l _ _ g first rest _ _ batch column single resolver nested u u' groups _ _ _ hfirst hn
      hreached hgroups hv hchild _ ih =>
      obtain ⟨i, hrow⟩ := List.getElem?_of_mem ih
      obtain ⟨v, hyield, hcolumn⟩ := Layer.column_of_first hfirst hn hrow
      rw [Execution.loadedValue_of_column hcolumn] at hv
      simp only [Layer.yields, NestedField.key_loadWith, hreached] at hyield
      obtain ⟨u'', hchildren⟩ := Layer.rows_after context ⟨nested,
        rowFields resolver.paginated (first :: rest), resolver.table,
        groups.values.flatMap Resolution.nodes, u'⟩
      exact Load.mem_of_served hgroups hchildren (List.mem_of_getElem? hyield) hv hchild

end ServedAt

end RelaySql
