import RelaySql.Graph.Loading
import RelaySql.Proofs.Fields

/-!
# Lookahead — what is planned for a response key

Looking ahead goes through the fields selected on rows and collects those that have a resolver by
their response keys.  After any number of fields, a key has the resolver of its first occurrence and
all its occurrences, in order.

* `Load.get?_foldl_collect`: what is collected for a response key.
* `Load.ofFields_split`: the load of a response key is planned once, from its first occurrence.
* `Load.keys_ofFields`: the keys that are planned, in the order of their first occurrences.
* `Load.ofFields_of_occurring_nil`: nothing is planned for a key that does not occur.
-/

namespace RelaySql

namespace Load

variable {C : Type}

/-- The occurrences of a response key, of the fields that have a resolver. -/
def occurrences (planners : Fields (Planner C)) (fields : List SelectedField) (key : String) :
    List SelectedField :=
  fields.filter fun f => f.key = key ∧ (planners.get? f.name).isSome

/-- A response key with the resolver of its first occurrence. -/
def planned (planners : Fields (Planner C)) : List SelectedField →
    Option (Planner C × List SelectedField)
  | [] => none
  | first :: rest => (planners.get? first.name).map (·, first :: rest)

variable {planners : Fields (Planner C)}

theorem occurrences_snoc_of_none {f : SelectedField} (h : planners.get? f.name = none)
    (fields : List SelectedField) (key : String) :
    occurrences planners (fields ++ [f]) key = occurrences planners fields key := by
  simp [occurrences, h]

theorem occurrences_snoc_of_some {f : SelectedField} {planner : Planner C}
    (h : planners.get? f.name = some planner) (fields : List SelectedField) (key : String) :
    occurrences planners (fields ++ [f]) key =
      if f.key = key then occurrences planners fields key ++ [f]
      else occurrences planners fields key := by
  by_cases hk : f.key = key <;> simp [occurrences, h, hk]

/-- Only what has no occurrence is not planned. -/
theorem planned_eq_none {fields : List SelectedField} {key : String}
    (h : planned planners (occurrences planners fields key) = none) :
    occurrences planners fields key = [] := by
  rcases ho : occurrences planners fields key with _ | ⟨first, rest⟩
  · rfl
  · have hm : first ∈ occurrences planners fields key := ho ▸ List.mem_cons_self
    have hs := (of_decide_eq_true (List.mem_filter.mp hm).2).2
    rw [ho, planned, Option.map_eq_none_iff] at h
    rw [h] at hs
    cases hs

/-- One more occurrence of a key that is planned. -/
theorem planned_snoc {occurrences : List SelectedField} {p : Planner C × List SelectedField}
    (h : planned planners occurrences = some p) (f : SelectedField) :
    occurrences = p.2 ∧ planned planners (occurrences ++ [f]) = some (p.1, occurrences ++ [f]) := by
  cases occurrences with
  | nil => cases h
  | cons first rest =>
      obtain ⟨planner, hp, rfl⟩ := Option.map_eq_some_iff.mp h
      exact ⟨rfl, by simp [planned, hp]⟩

/-- **What is collected for a response key.** -/
theorem get?_foldl_collect (fields : List SelectedField) (key : String) :
    Fields.get? (fields.foldl (collect planners) []) key =
      planned planners (occurrences planners fields key) := by
  induction fields using List.reverseRecOn with
  | nil => rfl
  | append_singleton fields f ih =>
      rw [List.foldl_append, List.foldl_cons, List.foldl_nil]
      rcases hp : planners.get? f.name with _ | planner
      · simp only [collect, hp, occurrences_snoc_of_none hp, ih]
      · simp only [collect, hp, occurrences_snoc_of_some hp]
        by_cases hk : f.key = key
        -- one more occurrence of the key itself: the first, or a later one
        · subst hk
          rw [if_pos rfl, ih]
          rcases hplan : planned planners (occurrences planners fields f.key) with _ | p
          · rw [planned_eq_none hplan, Fields.get?_insert_self]
            simp [planned, hp]
          · obtain ⟨ho, hsnoc⟩ := planned_snoc hplan f
            rw [hsnoc, ho]
            exact Fields.get?_insert_self _ _ _
        · rw [if_neg hk, ← ih]
          split <;> rw [Fields.get?_insert, if_neg hk]

/-- The response keys are collected in the order of their first occurrences. -/
theorem keys_foldl_collect (fields : List SelectedField) :
    Fields.keys (fields.foldl (collect planners) []) =
      ((fields.filter fun f => (planners.get? f.name).isSome).map SelectedField.key).eraseDups := by
  induction fields using List.reverseRecOn with
  | nil => rfl
  | append_singleton fields f ih =>
      rw [List.foldl_append, List.foldl_cons, List.foldl_nil, List.filter_append]
      rcases hp : planners.get? f.name with _ | planner
      · simp only [collect, hp, ih, List.filter_cons, Option.isSome_none, Bool.false_eq_true,
          if_false, List.filter_nil, List.append_nil]
      · simp only [collect, hp, List.filter_cons, Option.isSome_some, if_true, List.filter_nil,
          List.map_append, List.map_singleton]
        split
        · next hnone =>
            have hnew := Fields.get?_eq_none_iff.mp hnone
            rw [Fields.keys_insert, if_neg hnew, ih]
            rw [ih, List.mem_eraseDups] at hnew
            rw [Fields.eraseDups_snoc_of_not_mem hnew]
        · next hsome =>
            have hold := Fields.get?_isSome_iff.mp (Option.isSome_of_eq_some hsome)
            rw [Fields.keys_insert, if_pos hold, ih]
            rw [ih, List.mem_eraseDups] at hold
            rw [Fields.eraseDups_snoc_of_mem hold]

theorem nodup_foldl_collect (fields : List SelectedField) :
    (Fields.keys (fields.foldl (collect planners) [])).Nodup := by
  rw [keys_foldl_collect]
  exact Fields.nodup_eraseDups _

end Load

namespace NestedField

variable {C : Type}

theorem get?_planners (nested : List (String × NestedField C)) (name : String) :
    (planners nested).get? name = (Fields.get? nested name).map planner := by
  induction nested with
  | nil => rfl
  | cons p rest ih =>
      obtain ⟨n, f⟩ := p
      simp only [planners, Fields.get?, ih]
      split <;> rfl

theorem key_planner (f : NestedField C) (key : String) (fields : List SelectedField) :
    (f.planner key fields).key = key := by
  cases f
  rfl

end NestedField

namespace Load

variable {C : Type} {nested : List (String × NestedField C)} {fields : List SelectedField}

/-- The fields selected on rows, by what is registered for them. -/
def collected (nested : List (String × NestedField C)) (fields : List SelectedField) :
    Fields (Planner C × List SelectedField) :=
  (fields.flatMap SelectedField.children).foldl (collect (NestedField.planners nested)) []

/-- The occurrences of a response key on rows, of the fields that are registered for them. -/
def occurring (nested : List (String × NestedField C)) (fields : List SelectedField)
    (key : String) : List SelectedField :=
  occurrences (NestedField.planners nested) (fields.flatMap SelectedField.children) key

theorem mem_occurring {key : String} {f : SelectedField} :
    f ∈ occurring nested fields key ↔ f ∈ fields.flatMap SelectedField.children ∧ f.key = key ∧
      (Fields.get? nested f.name).isSome := by
  simp only [occurring, occurrences, List.mem_filter, decide_eq_true_eq, NestedField.get?_planners,
    Option.isSome_map]

/-- What is collected for a key plans for that key. -/
theorem key_of_mem_collected {key : String} {p : Planner C × List SelectedField}
    (h : (key, p) ∈ collected nested fields) : (p.1 key p.2).key = key := by
  have hget := Fields.get?_of_mem (nodup_foldl_collect _) h
  rw [get?_foldl_collect] at hget
  cases ho : occurrences (NestedField.planners nested) (fields.flatMap SelectedField.children) key with
  | nil =>
      rw [ho] at hget
      cases hget
  | cons first rest =>
      rw [ho, planned, NestedField.get?_planners] at hget
      obtain ⟨planner, hp, rfl⟩ := Option.map_eq_some_iff.mp hget
      obtain ⟨n, -, rfl⟩ := Option.map_eq_some_iff.mp hp
      exact n.key_planner key (first :: rest)

theorem map_key_ofFields :
    (ofFields (NestedField.planners nested) fields).map key = (collected nested fields).keys := by
  rw [ofFields, List.map_map]
  refine List.map_congr_left fun p hp => ?_
  exact key_of_mem_collected hp

/-- **The load of a response key** is planned once, from its first occurrence on the rows. -/
theorem ofFields_split {key : String} {first : SelectedField} {rest : List SelectedField}
    (ho : occurring nested fields key = first :: rest) {n : NestedField C}
    (hn : Fields.get? nested first.name = some n) :
    ∃ before after, ofFields (NestedField.planners nested) fields =
        before ++ n.planner key (first :: rest) :: after ∧
      (∀ load ∈ before, load.key ≠ key) ∧ ∀ load ∈ after, load.key ≠ key := by
  have hget : (collected nested fields).get? key = some (n.planner, first :: rest) := by
    rw [collected, get?_foldl_collect]
    simp only [occurring] at ho
    rw [ho, planned, NestedField.get?_planners, hn]
    rfl
  obtain ⟨before, after, hsplit, hbefore⟩ := Fields.split_of_get? hget
  have hafter : key ∉ Fields.keys after := by
    have hnodup : (collected nested fields).keys.Nodup := nodup_foldl_collect _
    rw [hsplit, Fields.keys, List.map_append, List.map_cons] at hnodup
    exact (List.nodup_cons.mp (List.nodup_append.mp hnodup).2.1).1
  -- the loads of a part of what is collected have the keys of that part
  have hpart : ∀ part ⊆ collected nested fields, key ∉ Fields.keys part →
      ∀ load ∈ part.map fun p => p.2.1 p.1 p.2.2, load.key ≠ key := by
    rintro part hpart hkey load hm rfl
    obtain ⟨p, hp, rfl⟩ := List.mem_map.mp hm
    refine hkey ?_
    rw [key_of_mem_collected (hpart hp)]
    exact List.mem_map_of_mem hp
  refine ⟨before.map fun p => p.2.1 p.1 p.2.2, after.map fun p => p.2.1 p.1 p.2.2, ?_,
    hpart before (hsplit ▸ List.subset_append_left _ _) hbefore,
    hpart after (hsplit ▸ fun _ hp => List.mem_append_right _ (List.mem_cons_of_mem _ hp)) hafter⟩
  have hloads : ofFields (NestedField.planners nested) fields =
      (collected nested fields).map fun p => p.2.1 p.1 p.2.2 := rfl
  rw [hloads, hsplit, List.map_append, List.map_cons]

/-- The response keys of the nested fields that are selected on rows, in the order of their first
occurrences. -/
def nestedKeys (nested : List (String × NestedField C)) (fields : List SelectedField) :
    List String :=
  (((fields.flatMap SelectedField.children).filter fun g =>
    (Fields.get? nested g.name).isSome).map SelectedField.key).eraseDups

/-- Every load that is planned is that of a response key, planned from its occurrences. -/
theorem exists_of_mem_ofFields {load : Load C}
    (h : load ∈ ofFields (NestedField.planners nested) fields) :
    ∃ first rest n, occurring nested fields load.key = first :: rest ∧
      Fields.get? nested first.name = some n ∧ load = n.planner load.key (first :: rest) := by
  obtain ⟨⟨key, p⟩, hp, rfl⟩ := List.mem_map.mp h
  have hkey := key_of_mem_collected hp
  have hget := Fields.get?_of_mem (nodup_foldl_collect _) hp
  simp only [hkey]
  rw [get?_foldl_collect] at hget
  simp only [occurring]
  cases ho : occurrences (NestedField.planners nested) (fields.flatMap SelectedField.children) key with
  | nil =>
      rw [ho] at hget
      cases hget
  | cons first rest =>
      rw [ho, planned, NestedField.get?_planners] at hget
      obtain ⟨planner, hplanner, rfl⟩ := Option.map_eq_some_iff.mp hget
      obtain ⟨n, hn, rfl⟩ := Option.map_eq_some_iff.mp hplanner
      exact ⟨first, rest, n, rfl, hn, rfl⟩

/-- **The response keys that are planned**, in the order of their first occurrences. -/
theorem keys_ofFields :
    (ofFields (NestedField.planners nested) fields).map key = nestedKeys nested fields := by
  rw [map_key_ofFields, collected, keys_foldl_collect, nestedKeys]
  simp only [NestedField.get?_planners, Option.isSome_map]

/-- Nothing is planned for a key that does not occur. -/
theorem ofFields_of_occurring_nil {key : String} (ho : occurring nested fields key = []) :
    ∀ load ∈ ofFields (NestedField.planners nested) fields, load.key ≠ key := by
  intro load hm hk
  have hkey : key ∈ (collected nested fields).keys := by
    rw [← map_key_ofFields, ← hk]
    exact List.mem_map_of_mem hm
  have hnone : (collected nested fields).get? key = none := by
    rw [collected, get?_foldl_collect]
    simp only [occurring] at ho
    rw [ho, planned]
  exact Fields.get?_eq_none_iff.mp hnone hkey

end Load

end RelaySql
