import Mathlib.Data.List.Induction
import Mathlib.Data.List.Nodup
import RelaySql.Fields

/-!
# Fields — a value for each of some names

* `Fields.tabulate`: the value that a function gives to each name of a list; a look-up finds it
  (`get?_tabulate`), and an insertion changes the function at one name (`insert_tabulate`).
* `Fields.firsts`: the pairs that come first under their names; its names are the names of the
  pairs, each once, in the order of their first occurrences (`keys_firsts`).
* `Fields.eraseDups_map`: a function that tells names apart keeps these occurrences.
-/

namespace RelaySql.Fields

variable {α β : Type}

/-! ### Names -/

/-- A value that is found stands behind other names. -/
theorem split_of_get? {f : Fields α} {name : String} {a : α} (h : f.get? name = some a) :
    ∃ before after, f = before ++ (name, a) :: after ∧ name ∉ keys before := by
  induction f with
  | nil => cases h
  | cons p rest ih =>
      obtain ⟨n, v⟩ := p
      simp only [get?] at h
      split at h
      · next hn =>
          subst hn
          obtain rfl := Option.some.inj h
          exact ⟨[], rest, rfl, List.not_mem_nil⟩
      · next hn =>
          obtain ⟨before, after, rfl, hb⟩ := ih h
          refine ⟨(n, v) :: before, after, rfl, ?_⟩
          simp only [keys, List.map_cons, List.mem_cons, not_or]
          exact ⟨Ne.symm hn, hb⟩

theorem mem_of_get? {f : Fields α} {name : String} {a : α} (h : f.get? name = some a) :
    (name, a) ∈ f := by
  obtain ⟨before, after, rfl, -⟩ := split_of_get? h
  exact List.mem_append_right _ List.mem_cons_self

theorem get?_of_mem {f : Fields α} (hf : f.keys.Nodup) {name : String} {a : α}
    (h : (name, a) ∈ f) : f.get? name = some a := by
  induction f with
  | nil => cases h
  | cons p rest ih =>
      obtain ⟨n, v⟩ := p
      obtain ⟨hn, hrest⟩ := List.nodup_cons.mp hf
      rcases List.mem_cons.mp h with he | hm
      · cases he
        exact if_pos rfl
      · have hne : n ≠ name := fun he => hn (List.mem_map.mpr ⟨_, hm, he.symm⟩)
        rw [get?, if_neg hne]
        exact ih hrest hm

/-! ### Tables of a function -/

/-- The value that `f` gives to each of the names. -/
def tabulate (names : List String) (f : String → α) : Fields α := names.map fun n => (n, f n)

@[simp] theorem keys_tabulate (names : List String) (f : String → α) :
    (tabulate names f).keys = names := by
  rw [tabulate, keys, List.map_map]
  exact List.map_id names

@[simp] theorem values_tabulate (names : List String) (f : String → α) :
    (tabulate names f).values = names.map f := by
  rw [tabulate, values, List.map_map]
  rfl

theorem get?_tabulate (names : List String) (f : String → α) (name : String) :
    (tabulate names f).get? name = if name ∈ names then some (f name) else none := by
  induction names with
  | nil => simp [tabulate]
  | cons n rest ih =>
      simp only [tabulate] at ih
      by_cases h : n = name
      · subst h
        simp [tabulate, get?]
      · simp [tabulate, get?, h, Ne.symm h, ih]

theorem tabulate_congr {names : List String} {f g : String → α} (h : ∀ n ∈ names, f n = g n) :
    tabulate names f = tabulate names g := by
  refine List.map_congr_left fun n hn => ?_
  rw [h n hn]

/-- Inserting at a name of the table changes the function there. -/
theorem insert_tabulate {names : List String} (hnames : names.Nodup) (f : String → α)
    {name : String} (hm : name ∈ names) (a : α) :
    (tabulate names f).insert name a = tabulate names (Function.update f name a) := by
  induction names with
  | nil => cases hm
  | cons n rest ih =>
      obtain ⟨hn, hrest⟩ := List.nodup_cons.mp hnames
      simp only [tabulate] at ih
      by_cases h : n = name
      · subst h
        have hsame : tabulate rest f = tabulate rest (Function.update f n a) := by
          refine tabulate_congr fun m hm => ?_
          have hne : m ≠ n := fun h => hn (h ▸ hm)
          rw [Function.update_of_ne hne]
        simp only [tabulate] at hsame
        simp [tabulate, insert, hsame]
      · have hm : name ∈ rest := (List.mem_cons.mp hm).resolve_left (Ne.symm h)
        simp [tabulate, insert, h, ih hrest hm]

theorem mapValues_eq_tabulate (f : Fields α) (b : β) :
    f.mapValues (fun _ => b) = tabulate f.keys fun _ => b := by
  simp [mapValues, tabulate, keys]

/-! ### First occurrences -/

/-- Puts a pair at the end, unless its name is there. -/
def addNew (f : Fields α) (pair : String × α) : Fields α :=
  if (f.get? pair.1).isSome then f else f.insert pair.1 pair.2

theorem get?_isSome_iff {f : Fields α} {name : String} :
    (f.get? name).isSome ↔ name ∈ f.keys := by
  rw [← not_iff_not, Bool.not_eq_true, Option.isSome_eq_false_iff, Option.isNone_iff_eq_none,
    get?_eq_none_iff]

/-- A value under a name that is new goes to the end. -/
theorem insert_of_not_mem {f : Fields α} {name : String} (h : name ∉ f.keys) (a : α) :
    f.insert name a = f ++ [(name, a)] := by
  induction f with
  | nil => rfl
  | cons p rest ih =>
      obtain ⟨n, v⟩ := p
      simp only [keys, List.map_cons, List.mem_cons, not_or] at h
      simp only [insert, if_neg (Ne.symm h.1), List.cons_append, List.cons.injEq, true_and]
      exact ih h.2

theorem addNew_of_mem {f : Fields α} {pair : String × α} (h : pair.1 ∈ f.keys) :
    f.addNew pair = f := by
  rw [addNew, if_pos (get?_isSome_iff.mpr h)]

theorem addNew_of_not_mem {f : Fields α} {pair : String × α} (h : pair.1 ∉ f.keys) :
    f.addNew pair = f ++ [pair] := by
  rw [addNew, if_neg (fun hs => h (get?_isSome_iff.mp hs)), insert_of_not_mem h]

theorem eraseDups_snoc_of_mem {names : List String} {name : String} (h : name ∈ names) :
    (names ++ [name]).eraseDups = names.eraseDups := by
  have hold : [name].removeAll names = [] := by simp [List.removeAll, h]
  rw [List.eraseDups_append, hold, List.eraseDups_nil, List.append_nil]

theorem eraseDups_snoc_of_not_mem {names : List String} {name : String} (h : name ∉ names) :
    (names ++ [name]).eraseDups = names.eraseDups ++ [name] := by
  have hnew : [name].removeAll names = [name] := by simp [List.removeAll, h]
  have hone : [name].eraseDups = [name] := rfl
  rw [List.eraseDups_append, hnew, hone]

theorem nodup_eraseDups (names : List String) : names.eraseDups.Nodup := by
  induction names using List.reverseRecOn with
  | nil => exact List.nodup_nil
  | append_singleton names name ih =>
      by_cases h : name ∈ names
      · rwa [eraseDups_snoc_of_mem h]
      · rw [eraseDups_snoc_of_not_mem h, ← List.concat_eq_append]
        exact ih.concat fun hm => h (List.mem_eraseDups.mp hm)

/-- The values of a function that tells names apart, each once: one for each name. -/
theorem eraseDups_map {f : String → String} {names : List String}
    (h : ∀ m ∈ names, ∀ n ∈ names, f m = f n → m = n) :
    (names.map f).eraseDups = names.eraseDups.map f := by
  induction names using List.reverseRecOn with
  | nil => rfl
  | append_singleton names name ih =>
      have hmem : ∀ m ∈ names, m ∈ names ++ [name] := fun m hm => List.mem_append_left _ hm
      have hmap := ih fun m hm n hn => h m (hmem m hm) n (hmem n hn)
      rw [List.map_append, List.map_singleton]
      by_cases hn : name ∈ names
      · rw [eraseDups_snoc_of_mem hn, eraseDups_snoc_of_mem (List.mem_map_of_mem hn), hmap]
      · have hfn : f name ∉ names.map f := by
          intro hfn
          obtain ⟨m, hm, hmn⟩ := List.mem_map.mp hfn
          exact hn (h m (hmem m hm) name List.mem_concat_self hmn ▸ hm)
        rw [eraseDups_snoc_of_not_mem hn, eraseDups_snoc_of_not_mem hfn, hmap, List.map_append,
          List.map_singleton]

/-- The pairs that come first under their names. -/
def firsts (pairs : List (String × α)) : Fields α := pairs.foldl addNew []

theorem firsts_snoc (pairs : List (String × α)) (pair : String × α) :
    firsts (pairs ++ [pair]) = (firsts pairs).addNew pair := by
  simp [firsts, List.foldl_append]

/-- **The names that occur**, each once, in the order of their first occurrences. -/
theorem keys_firsts (pairs : List (String × α)) :
    (firsts pairs).keys = (pairs.map Prod.fst).eraseDups := by
  induction pairs using List.reverseRecOn with
  | nil => rfl
  | append_singleton pairs pair ih =>
      rw [firsts_snoc, List.map_append, List.map_singleton]
      by_cases h : pair.1 ∈ pairs.map Prod.fst
      · rw [eraseDups_snoc_of_mem h, addNew_of_mem (ih ▸ List.mem_eraseDups.mpr h), ih]
      · rw [eraseDups_snoc_of_not_mem h,
          addNew_of_not_mem fun hk => h (List.mem_eraseDups.mp (ih ▸ hk)), ← ih]
        exact List.map_append

theorem nodup_keys_firsts (pairs : List (String × α)) : (firsts pairs).keys.Nodup :=
  keys_firsts pairs ▸ nodup_eraseDups _

theorem mem_of_mem_firsts {pairs : List (String × α)} {pair : String × α}
    (h : pair ∈ firsts pairs) : pair ∈ pairs := by
  induction pairs using List.reverseRecOn with
  | nil => cases h
  | append_singleton pairs last ih =>
      rw [firsts_snoc] at h
      by_cases hl : last.1 ∈ (firsts pairs).keys
      · rw [addNew_of_mem hl] at h
        exact List.mem_append_left _ (ih h)
      · rw [addNew_of_not_mem hl] at h
        rcases List.mem_append.mp h with h | h
        · exact List.mem_append_left _ (ih h)
        · exact List.mem_append_right _ h

end RelaySql.Fields
