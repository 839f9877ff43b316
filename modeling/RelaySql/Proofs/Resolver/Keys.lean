import RelaySql.Proofs.Fields
import RelaySql.Proofs.Outcome
import RelaySql.Proofs.Resolver.Compose

/-!
# Resolvers — the keys of a batch

* `ParentBatch.distinctKeys_eq`: the keys of a batch are those of its rows, each with the literal of
  its first occurrence.
* `ParentBatch.keys_distinctKeys`: they are the texts of the rows' keys, each once, in the order of
  their first occurrences.
* `ParentBatch.attach_eq_ok`: what a batch becomes when every row's key has a value.
-/

namespace RelaySql

/-- The text by which a value is compared as a key; null, arrays and objects have none. -/
def Json.keyText? : Json → Option String
  | string s => some s
  | number n => some n.text
  | boolean b => some (toString b)
  | _ => none

theorem keyText_eq_ok {v : Json} {key : String} : keyText v = .ok key ↔ v.keyText? = some key := by
  cases v <;> simp [keyText, Json.keyText?]

theorem keyText_of_none {v : Json} (h : v.keyText? = none) :
    keyText v = .error (.composition (.unusableKey v)) := by
  cases v <;> simp_all [keyText, Json.keyText?]

/-- A value with a key text has a literal. -/
theorem literal_of_keyText {v : Json} {key : String} (h : keyText v = .ok key) :
    ∃ l, Sql.literal v = .ok l := by
  cases v with
  | null | array _ | object _ => cases h
  | boolean b => exact ⟨_, rfl⟩
  | number n => exact ⟨_, rfl⟩
  | string s => exact ⟨_, rfl⟩

namespace ParentBatch

/-- The key of a row with its literal. -/
def entry (p : ParentBatch) (row : Row) : Except Fault (String × String) := do
  let value ← p.keyValue row
  let key ← keyText value
  return (key, ← Sql.literal value)

theorem addKey_eq (p : ParentBatch) (keys : Fields String) (row : Row) :
    p.addKey keys row = (p.entry row).map keys.addNew := by
  simp only [addKey, entry]
  rcases p.keyValue row with e | value
  · rfl
  · rcases hk : keyText value with e | key
    · simp only [bind, Except.bind, hk]
      rfl
    · obtain ⟨l, hl⟩ := literal_of_keyText hk
      simp only [bind, Except.bind, hk, hl, pure, Except.pure, Except.map, Fields.addNew]
      split <;> rfl

/-- **The keys of a batch**: those of its rows, each with the literal of its first occurrence. -/
theorem distinctKeys_eq (p : ParentBatch) :
    p.distinctKeys = (p.rows.mapM p.entry).map Fields.firsts :=
  Except.foldlM_eq_map p.addKey_eq p.rows []

theorem keyOf_eq (p : ParentBatch) (row : Row) : p.keyOf row = (p.entry row).map Prod.fst := by
  simp only [keyOf, entry]
  rcases p.keyValue row with e | value
  · rfl
  · rcases hk : keyText value with e | key
    · simp only [bind, Except.bind, hk]
      rfl
    · obtain ⟨l, hl⟩ := literal_of_keyText hk
      simp only [bind, Except.bind, hk, hl]
      rfl

/-- The texts of the rows' keys. -/
def texts (p : ParentBatch) : Except Fault (List String) := p.rows.mapM p.keyOf

theorem texts_eq (p : ParentBatch) :
    p.texts = (p.rows.mapM p.entry).map (List.map Prod.fst) := by
  rw [← Except.mapM_map, texts]
  simp only [← keyOf_eq]

/-- A batch that has keys: the texts of its rows' keys, each once. -/
theorem keys_distinctKeys {p : ParentBatch} {keys : Fields String}
    (h : p.distinctKeys = .ok keys) : ∃ texts, p.texts = .ok texts ∧ keys.keys = texts.eraseDups := by
  rw [distinctKeys_eq] at h
  obtain ⟨entries, he, rfl⟩ := Except.map_eq_ok.mp h
  refine ⟨entries.map Prod.fst, ?_, Fields.keys_firsts entries⟩
  rw [texts_eq, he]
  rfl

theorem nodup_distinctKeys {p : ParentBatch} {keys : Fields String}
    (h : p.distinctKeys = .ok keys) : keys.keys.Nodup := by
  rw [distinctKeys_eq] at h
  obtain ⟨entries, -, rfl⟩ := Except.map_eq_ok.mp h
  exact Fields.nodup_keys_firsts entries

/-- Only a batch without rows has no keys. -/
theorem distinctKeys_ne_nil {p : ParentBatch} {keys : Fields String}
    (h : p.distinctKeys = .ok keys) (hrows : p.rows ≠ []) : keys ≠ [] := by
  obtain ⟨texts, ht, hk⟩ := keys_distinctKeys h
  have hlength := (Except.mapM_eq_ok.mp ht).length_eq
  rintro rfl
  cases texts with
  | nil => exact hrows (List.eq_nil_of_length_eq_zero hlength)
  | cons text rest =>
      rw [List.eraseDups_cons] at hk
      cases hk

/-- A batch whose statement is composed has keys. -/
theorem distinctKeys_of_compose {C : Type} {r : Resolver C} {args : Arguments} {context : C}
    {p : ParentBatch} {q : ComposedQuery} (hq : r.compose args context (some p) = .ok q) :
    ∃ keys, p.distinctKeys = .ok keys := by
  obtain ⟨join, -, hj, -, -⟩ := Resolver.compose_eq_ok hq
  obtain ⟨join, hj, -⟩ := Except.map_eq_ok.mp hj
  simp only [Resolver.composeJoin] at hj
  split at hj
  · cases hj
  · obtain ⟨condition, -, hj⟩ := Except.bind_eq_ok.mp hj
    split at hj
    · cases hj
    · obtain ⟨keys, hk, -⟩ := Except.bind_eq_ok.mp hj
      exact ⟨keys, hk⟩

/-- The row with the value of its key under `field`. -/
def Attached (p : ParentBatch) (field : String) (groups : Fields Resolution) (row row' : Row) :
    Prop :=
  ∃ key value, p.keyOf row = .ok key ∧ groups.get? key = some value ∧
    row' = Fields.insert row field value.toJson

/-- **A batch with its values**: when the key of every row has a value, each row gets the value of
its own. -/
theorem attach_eq_ok {p : ParentBatch} {texts : List String} (ht : p.texts = .ok texts)
    (field : String) {groups : Fields Resolution} (hg : ∀ key ∈ texts, key ∈ groups.keys) :
    ∃ rows, p.attach field groups = .ok rows ∧
      List.Forall₂ (p.Attached field groups) p.rows rows := by
  have hattached : ∃ rows, List.Forall₂ (p.Attached field groups) p.rows rows := by
    have hkeys := Except.mapM_eq_ok.mp ht
    clear ht
    generalize p.rows = parents at hkeys
    induction hkeys with
    | nil => exact ⟨[], .nil⟩
    | cons hk _ ih =>
        obtain ⟨hfirst, hrest⟩ := List.forall_mem_cons.mp hg
        obtain ⟨rows, hrows⟩ := ih hrest
        obtain ⟨value, hvalue⟩ := Option.isSome_iff_exists.mp (Fields.get?_isSome_iff.mpr hfirst)
        exact ⟨_ :: rows, .cons ⟨_, value, hk, hvalue, rfl⟩ hrows⟩
  obtain ⟨rows, hrows⟩ := hattached
  refine ⟨rows, Except.mapM_eq_ok.mpr (hrows.imp ?_), hrows⟩
  rintro row row' ⟨key, value, hk, hv, rfl⟩
  simp only [hk, hv, bind, Except.bind]

end ParentBatch

end RelaySql
