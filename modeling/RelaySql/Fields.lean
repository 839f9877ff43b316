/-!
# Fields — named values in the order they were first given

A list of named values read as a map: a name is looked up at its first occurrence, and putting a
value under a name that is present replaces the value where it stands, while a new name goes to
the end.

* `get?_insert`: a look-up after an insertion sees the new value under its name and the old ones
  under every other name.
* `keys_insert`: an insertion keeps the names in place and adds at most its own, at the end.
-/

namespace RelaySql

universe u v

/-- Named values, in order. -/
abbrev Fields (α : Type u) : Type u := List (String × α)

namespace Fields

variable {α : Type u} {β : Type v}

/-- The value under a name. -/
def get? : Fields α → String → Option α
  | [], _ => none
  | (n, v) :: r, name => if n = name then some v else get? r name

/-- Puts a value under a name, in the place of the value it has or else at the end. -/
def insert : Fields α → String → α → Fields α
  | [], name, a => [(name, a)]
  | (n, v) :: r, name, a => if n = name then (n, a) :: r else (n, v) :: insert r name a

/-- The names, in order. -/
def keys (f : Fields α) : List String := List.map Prod.fst f

/-- The values, in order. -/
def values (f : Fields α) : List α := List.map Prod.snd f

/-- The pairs inserted one after another. -/
def ofPairs (pairs : List (String × α)) : Fields α :=
  List.foldl (fun f p => f.insert p.1 p.2) [] pairs

/-- Applies a function to every value. -/
def mapValues (g : α → β) (f : Fields α) : Fields β := List.map (fun p => (p.1, g p.2)) f

@[simp] theorem get?_nil (name : String) : get? ([] : Fields α) name = none := rfl

theorem get?_insert (f : Fields α) (name name' : String) (a : α) :
    (f.insert name a).get? name' = if name = name' then some a else f.get? name' := by
  induction f with
  | nil => simp [insert, get?]
  | cons p r ih =>
    obtain ⟨n, v⟩ := p
    by_cases h : n = name
    · subst h; by_cases h' : n = name' <;> simp [insert, get?, h']
    · by_cases h' : n = name'
      · subst h'
        simp [insert, get?, h, Ne.symm h]
      · simp [insert, get?, h, h', ih]

theorem get?_insert_self (f : Fields α) (name : String) (a : α) :
    (f.insert name a).get? name = some a := by
  rw [get?_insert, if_pos rfl]

theorem get?_eq_none_iff {f : Fields α} {name : String} :
    f.get? name = none ↔ name ∉ f.keys := by
  induction f with
  | nil => simp [keys]
  | cons p r ih =>
    obtain ⟨n, v⟩ := p
    by_cases h : n = name
    · simp [get?, keys, h]
    · simp only [get?, h, if_false, ih, keys, List.map_cons, List.mem_cons]
      exact ⟨fun hr => by simp [Ne.symm h, hr], fun hr hm => hr (Or.inr hm)⟩

theorem keys_insert (f : Fields α) (name : String) (a : α) :
    (f.insert name a).keys = if name ∈ f.keys then f.keys else f.keys ++ [name] := by
  induction f with
  | nil => simp [insert, keys]
  | cons p r ih =>
    obtain ⟨n, v⟩ := p
    by_cases h : n = name
    · subst h; simp [insert, keys]
    · simp only [keys] at ih
      by_cases hm : name ∈ List.map Prod.fst r <;> simp [insert, keys, h, Ne.symm h, ih, hm]

end Fields

end RelaySql
