import RelaySql.Graph.Loading
import RelaySql.Proofs.Outcome
import RelaySql.Proofs.Run

/-!
# Loading — what the rows hold afterwards

Loads are stored in the rows one after another, each in the column of its response key.  Storing
never fails and keeps the rows in their order; a load that fails leaves its fault in every row.

* `Load.storeAll_append`: loads may be stored in two goes.
* `Load.storeAll_kept`: rows keep every column that no load is stored in.
* `Load.storeAll_column`: the column of a response key holds what its load yielded for the row, when
  no later load has the same key.
-/

namespace RelaySql

/-- The columns that no load of these keys is stored in have the same values. -/
def Row.KeptBut (keys : List String) (row stored : Row) : Prop :=
  ∀ column, (∀ key ∈ keys, loadedColumn key ≠ column) →
    Fields.get? stored column = Fields.get? row column

theorem loadedColumn_injective {key key' : String} (h : loadedColumn key = loadedColumn key') :
    key = key' := by
  have h := congrArg String.toList h
  simp only [loadedColumn, String.toList_append] at h
  exact String.toList_inj.mp (List.append_cancel_left h)

namespace Load

variable {C : Type} {context : C} {table : String}

/-- A load gives every row of a batch a value. -/
theorem values_length {load : Load C} {rows : List Row} {t : Trace} {values : List Json}
    (h : ((load.values context table rows).after t).1 = .ok values) :
    values.length = rows.length := by
  cases load with
  | mk key column single resolver arguments below =>
      rw [Load.values] at h
      obtain ⟨groups, u, -, h⟩ := Run.after_bind_eq_ok h
      obtain ⟨children, u', -, h⟩ := Run.after_bind_eq_ok h
      rw [Run.after_lift, valuesOf, Except.mapM_eq_ok] at h
      exact h.length_eq.symm

/-- What a load yields for the rows of a batch: their values, or its fault for each. -/
def yielded (context : C) (table : String) (load : Load C) (rows : List Row) (t : Trace) :
    List Json :=
  match ((load.values context table rows).after t).1 with
  | .ok values => values
  | .error fault => rows.map fun _ => fault.toJson

theorem length_yielded (context : C) (table : String) (load : Load C) (rows : List Row)
    (t : Trace) : (load.yielded context table rows t).length = rows.length := by
  simp only [yielded]
  split
  · next h => exact values_length h
  · exact List.length_map _

/-- **One load is stored**, and then the others. -/
theorem storeAll_cons (load : Load C) (rest : List (Load C)) {rows : List Row} (h : rows ≠ [])
    (t : Trace) :
    (storeAll context table rows (load :: rest)).after t =
      (storeAll context table (store load.key rows (load.yielded context table rows t)) rest).after
        ((load.values context table rows).after t).2 := by
  simp only [storeAll, h, if_false, Run.after_bind, Run.after_tryCatch, yielded]
  rcases (load.values context table rows).after t with ⟨_ | _, _⟩ <;> rfl

theorem storeAll_nil_rows (loads : List (Load C)) (t : Trace) :
    (storeAll context table [] loads).after t = (.ok [], t) := by
  cases loads <;> rfl

/-- **Loads may be stored in two goes.** -/
theorem storeAll_append (before rest : List (Load C)) (rows : List Row) (t : Trace) :
    (storeAll context table rows (before ++ rest)).after t =
      match (storeAll context table rows before).after t with
      | (.ok stored, u) => (storeAll context table stored rest).after u
      | (.error e, u) => (.error e, u) := by
  induction before generalizing rows t with
  | nil => rfl
  | cons load before ih =>
      by_cases h : rows = []
      · subst h
        rw [storeAll_nil_rows, storeAll_nil_rows]
        exact (storeAll_nil_rows rest t).symm
      · rw [List.cons_append, storeAll_cons load _ h, storeAll_cons load _ h]
        exact ih _ _

theorem getElem?_store (key : String) {rows : List Row} {values : List Json}
    (h : values.length = rows.length) {i : Nat} {row : Row} (hrow : rows[i]? = some row) :
    ∃ v, values[i]? = some v ∧
      (store key rows values)[i]? = some (Fields.insert row (loadedColumn key) v) := by
  obtain ⟨hi, -⟩ := List.getElem?_eq_some_iff.mp hrow
  have hv : values[i]? = some values[i] := List.getElem?_eq_getElem (h ▸ hi)
  exact ⟨_, hv, by rw [store, List.getElem?_zipWith, hrow, hv]⟩

/-- **Rows keep every column that no load is stored in**, and their order. -/
theorem storeAll_kept (context : C) (table : String) (loads : List (Load C)) (rows : List Row)
    (t : Trace) :
    ∃ stored u, (storeAll context table rows loads).after t = (.ok stored, u) ∧
      stored.length = rows.length ∧ ∀ (i : Nat) (row : Row), rows[i]? = some row →
        ∃ row', stored[i]? = some row' ∧ row.KeptBut (loads.map key) row' := by
  induction loads generalizing rows t with
  | nil => exact ⟨rows, t, rfl, rfl, fun i row h => ⟨row, h, fun _ _ => rfl⟩⟩
  | cons load rest ih =>
      by_cases hnil : rows = []
      · subst hnil
        exact ⟨[], t, storeAll_nil_rows _ t, rfl, fun i row h => by simp at h⟩
      · have hlength := length_yielded context table load rows t
        obtain ⟨stored, u, hstored, hl, hkept⟩ :=
          ih (store load.key rows (load.yielded context table rows t))
            ((load.values context table rows).after t).2
        refine ⟨stored, u, (storeAll_cons load rest hnil t).trans hstored, ?_, ?_⟩
        · rw [hl, store, List.length_zipWith, hlength, Nat.min_self]
        · intro i row hrow
          obtain ⟨v, -, hv⟩ := getElem?_store load.key hlength hrow
          obtain ⟨row', hrow', hk⟩ := hkept i _ hv
          refine ⟨row', hrow', fun column hc => ?_⟩
          obtain ⟨hfirst, hrest⟩ := List.forall_mem_cons.mp hc
          rw [hk column hrest, Fields.get?_insert, if_neg hfirst]

/-- **The column of a response key** holds what its load yielded for the row. -/
theorem storeAll_column {before rest : List (Load C)} {load : Load C} {rows batch : List Row}
    {t u : Trace} (hbatch : (storeAll context table rows before).after t = (.ok batch, u))
    (hrest : ∀ other ∈ rest, other.key ≠ load.key) {stored : List Row}
    (hstored : ((storeAll context table rows (before ++ load :: rest)).after t).1 = .ok stored)
    {i : Nat} {row : Row} (hrow : stored[i]? = some row) :
    ∃ v, (load.yielded context table batch u)[i]? = some v ∧
      Fields.get? row (loadedColumn load.key) = some v := by
  rw [storeAll_append, hbatch] at hstored
  change ((storeAll context table batch (load :: rest)).after u).1 = .ok stored at hstored
  by_cases hnil : batch = []
  · subst hnil
    rw [storeAll_nil_rows] at hstored
    cases hstored
    simp at hrow
  · rw [storeAll_cons load rest hnil] at hstored
    have hlength := length_yielded context table load batch u
    -- the loads after it keep its column
    obtain ⟨stored', u', heq, hl, hkept⟩ := storeAll_kept context table rest
      (store load.key batch (load.yielded context table batch u))
      ((load.values context table batch).after u).2
    rw [heq] at hstored
    cases hstored
    have hi : i < batch.length := by
      obtain ⟨hi, -⟩ := List.getElem?_eq_some_iff.mp hrow
      rwa [hl, store, List.length_zipWith, hlength, Nat.min_self] at hi
    obtain ⟨v, hv, hstore⟩ := getElem?_store load.key hlength (List.getElem?_eq_getElem hi)
    obtain ⟨row', hrow', hk⟩ := hkept i _ hstore
    obtain rfl := Option.some.inj (hrow'.symm.trans hrow)
    refine ⟨v, hv, ?_⟩
    rw [hk, Fields.get?_insert_self]
    intro key hm he
    obtain ⟨other, ho, rfl⟩ := List.mem_map.mp hm
    exact hrest other ho (loadedColumn_injective he)

end Load

end RelaySql
