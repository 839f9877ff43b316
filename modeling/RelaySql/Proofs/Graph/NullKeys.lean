import RelaySql.Proofs.Graph.Covered
import RelaySql.Proofs.Graph.Failing

/-!
# Loading — rows with null in the key column

A nested field is loaded for many rows at once, by the keys of all of them.  A row may have null in
the key column, which is no key, and then composing the join fails: not for that row alone, but for
the whole load.

* `Resolver.composeJoin_eq`: a join is composed before the keys of the rows are read.
* `ParentBatch.distinctKeys_of_first`: the fault of the keys is that of the first row without one.
* `Resolver.composeJoin_of_not_failsOnNull`: what a join that does not fail on null comes to without
  the rows that have null.
* `Load.spares_iff`: when the rows with null in the key column leave the values of the others as
  they are.
* `Load.not_spares_anonymousPost`: the author of a post is lost for a post without an author.
-/

namespace RelaySql

namespace Row

/-- The row has a key in the column: a text, a number or a truth value. -/
def HasKey (column : String) (row : Row) : Prop :=
  ∃ v, Fields.get? row column = some v ∧ v.keyText?.isSome

/-- The row has null in the column. -/
def NullAt (column : String) (row : Row) : Prop := Fields.get? row column = some .null

instance (column : String) (row : Row) : Decidable (row.NullAt column) :=
  inferInstanceAs (Decidable (_ = _))

theorem HasKey.not_nullAt {column : String} {row : Row} (h : row.HasKey column) :
    ¬ row.NullAt column := by
  obtain ⟨v, hv, hkey⟩ := h
  intro hnull
  obtain rfl := Option.some.inj (hv.symm.trans hnull)
  cases hkey

/-- The rows that do not have null in the column. -/
def nonNull (column : String) (rows : List Row) : List Row :=
  rows.filter fun row => ¬ row.NullAt column

theorem nonNull_split {column : String} {row : Row} (h : ¬ row.NullAt column)
    (before after : List Row) :
    nonNull column (before ++ row :: after) =
      nonNull column before ++ row :: nonNull column after := by
  rw [nonNull, List.filter_append, List.filter_cons_of_pos (by simpa using h)]
  rfl

theorem nonNull_of_keys {column : String} {rows : List Row}
    (h : ∀ row ∈ rows, row.HasKey column) : nonNull column rows = rows :=
  List.filter_eq_self.mpr fun row hrow => by simpa using (h row hrow).not_nullAt

/-- A row with a key has its place among all rows, and among those that do not have null. -/
theorem place_of_hasKey {column : String} {rows before after : List Row} {row : Row}
    (hsplit : rows = before ++ row :: after) (h : row.HasKey column) :
    before.length < rows.length ∧
      (nonNull column before).length < (nonNull column rows).length := by
  subst hsplit
  rw [nonNull_split h.not_nullAt]
  simp

/-- Null is in the column of the first row that has no key there. -/
def NullFirst (column : String) (rows : List Row) : Prop :=
  ∃ before row after, rows = before ++ row :: after ∧ (∀ r ∈ before, r.HasKey column) ∧
    row.NullAt column

end Row

namespace ParentBatch

theorem keyOf_of_hasKey {p : ParentBatch} {row : Row} (h : row.HasKey p.keyColumn) :
    ∃ key, p.keyOf row = .ok key := by
  obtain ⟨v, hv, hkey⟩ := h
  obtain ⟨key, hkey⟩ := Option.isSome_iff_exists.mp hkey
  exact ⟨key, by simp only [keyOf, keyValue, hv]; exact keyText_eq_ok.mpr hkey⟩

theorem hasKey_of_keyOf {p : ParentBatch} {row : Row} {key : String} (h : p.keyOf row = .ok key) :
    row.HasKey p.keyColumn := by
  obtain ⟨v, hv, hkey⟩ := Except.bind_eq_ok.mp h
  refine ⟨v, ?_, Option.isSome_of_eq_some (keyText_eq_ok.mp hkey)⟩
  simp only [keyValue] at hv
  split at hv
  · next own hown => exact hown.trans (congrArg some (Except.ok.inj hv))
  · cases hv

theorem keyOf_of_nullAt {p : ParentBatch} {row : Row} (h : row.NullAt p.keyColumn) :
    p.keyOf row = .error (.composition (.unusableKey .null)) := by
  have hv : Fields.get? row p.keyColumn = some .null := h
  simp only [keyOf, keyValue, hv]
  rfl

/-- **The keys of a batch fail** with the fault of the first row that has none. -/
theorem distinctKeys_of_first {p : ParentBatch} {before after : List Row} {row : Row}
    {fault : Fault} (hrows : p.rows = before ++ row :: after)
    (hbefore : ∀ r ∈ before, r.HasKey p.keyColumn) (hrow : p.keyOf row = .error fault) :
    p.distinctKeys = .error fault := by
  have hentry : ∀ r f, p.keyOf r = .error f → p.entry r = .error f := by
    intro r f h
    rw [keyOf_eq] at h
    exact Except.map_eq_error.mp h
  rw [distinctKeys_eq, Except.map_eq_error, Except.mapM_eq_error]
  refine ⟨before, row, after, hrows, fun r hr => ?_, hentry row fault hrow⟩
  obtain ⟨key, hkey⟩ := keyOf_of_hasKey (hbefore r hr)
  rw [keyOf_eq] at hkey
  obtain ⟨entry, hentry, -⟩ := Except.map_eq_ok.mp hkey
  exact ⟨entry, hentry⟩

/-- The rows all have keys, or there is a first one that has none. -/
theorem hasKey_or_first (p : ParentBatch) :
    (∀ row ∈ p.rows, row.HasKey p.keyColumn) ∨ ∃ before row after fault,
      p.rows = before ++ row :: after ∧ (∀ r ∈ before, r.HasKey p.keyColumn) ∧
        p.keyOf row = .error fault := by
  cases htexts : p.rows.mapM p.keyOf with
  | ok texts =>
      refine .inl fun row hrow => ?_
      obtain ⟨key, -, hkey⟩ := Except.mem_of_mapM_eq_ok htexts hrow
      exact hasKey_of_keyOf hkey
  | error fault =>
      obtain ⟨before, row, after, hrows, hbefore, hrow⟩ := Except.mapM_eq_error.mp htexts
      refine .inr ⟨before, row, after, fault, hrows, fun r hr => ?_, hrow⟩
      obtain ⟨key, hkey⟩ := hbefore r hr
      exact hasKey_of_keyOf hkey

end ParentBatch

namespace Resolver

variable {C : Type} {r : Resolver C} {args : Arguments} {context : C} {table column : String}

/-- **A join is composed before the keys of the rows are read**: with those of no rows, and then
with theirs. -/
theorem composeJoin_eq (r : Resolver C) (args : Arguments) (context : C) (p : ParentBatch) :
    r.composeJoin args context p = (do
      let join ← r.composeJoin args context { p with rows := [] }
      let keys ← p.distinctKeys
      return { join with parentKeys := keys.values }) := by
  simp only [composeJoin]
  cases r.join with
  | none => rfl
  | some condition =>
      change (condition (p.aliasFor r.table) r.table args context >>= _) = _
      simp only [ParentBatch.aliasFor]
      cases condition _ r.table args context with
      | error fault => rfl
      | ok text =>
          simp only [bind, Except.bind]
          split
          · rfl
          · rfl

/-- A join that fails for no rows fails for all in the same way. -/
theorem composeJoin_of_no_rows {p : ParentBatch} {fault : Fault}
    (h : r.composeJoin args context { p with rows := [] } = .error fault) :
    r.composeJoin args context p = .error fault := by
  rw [composeJoin_eq, h]
  rfl

/-- Otherwise it fails when the keys do. -/
theorem composeJoin_of_keys {p : ParentBatch} {join : Join} {fault : Fault}
    (h : r.composeJoin args context { p with rows := [] } = .ok join)
    (hkeys : p.distinctKeys = .error fault) : r.composeJoin args context p = .error fault := by
  rw [composeJoin_eq, h, hkeys]
  rfl

/-- Composing the join fails on null in the key column: up to the keys it does not fail, and null is
in the place of the first key that is missing. -/
def FailsOnNull (r : Resolver C) (args : Arguments) (context : C) (p : ParentBatch) : Prop :=
  Row.NullFirst p.keyColumn p.rows ∧
    ∃ join, r.composeJoin args context { p with rows := [] } = .ok join

theorem composeJoin_of_failsOnNull {p : ParentBatch} (h : r.FailsOnNull args context p) :
    r.composeJoin args context p = .error (.composition (.unusableKey .null)) := by
  obtain ⟨⟨before, row, after, hsplit, hbefore, hnull⟩, join, hjoin⟩ := h
  exact composeJoin_of_keys hjoin
    (ParentBatch.distinctKeys_of_first hsplit hbefore (ParentBatch.keyOf_of_nullAt hnull))

/-- **If the join does not fail on null**, then all rows have keys, or it fails in the same way
without the rows that have null. -/
theorem composeJoin_of_not_failsOnNull {rows : List Row}
    (h : ¬ r.FailsOnNull args context ⟨table, column, rows⟩) :
    (∀ row ∈ rows, row.HasKey column) ∨ ∃ fault,
      r.composeJoin args context ⟨table, column, rows⟩ = .error fault ∧
        r.composeJoin args context ⟨table, column, Row.nonNull column rows⟩ = .error fault := by
  cases hjoin : r.composeJoin args context ⟨table, column, []⟩ with
  | error fault =>
      exact .inr ⟨fault, composeJoin_of_no_rows hjoin, composeJoin_of_no_rows hjoin⟩
  | ok join =>
      obtain hkeys | ⟨before, row, after, fault, hsplit, hbefore, hrow⟩ :=
        ParentBatch.hasKey_or_first ⟨table, column, rows⟩
      · exact .inl hkeys
      -- the row whose key fails is not left out
      have hnull : ¬ row.NullAt column := fun hnull =>
        h ⟨⟨before, row, after, hsplit, hbefore, hnull⟩, join, hjoin⟩
      have hsplit' : Row.nonNull column rows = before ++ row :: Row.nonNull column after := by
        rw [← Row.nonNull_of_keys hbefore, ← Row.nonNull_split hnull]
        exact congrArg _ hsplit
      refine .inr ⟨fault, composeJoin_of_keys hjoin ?_, composeJoin_of_keys hjoin ?_⟩
      · exact ParentBatch.distinctKeys_of_first hsplit hbefore hrow
      · exact ParentBatch.distinctKeys_of_first (p := ⟨table, column, Row.nonNull column rows⟩)
          hsplit' hbefore hrow

end Resolver

namespace Load

variable {C : Type} {context : C} {table key column : String} {single : Bool}
  {resolver : Resolver C} {arguments : Arguments} {below : List (Load C)}

/-- A load whose join fails does nothing. -/
theorem values_of_composeJoin {rows : List Row} {fault : Fault}
    (h : resolver.composeJoin arguments context ⟨table, column, rows⟩ = .error fault) (t : Trace) :
    ((mk key column single resolver arguments below).values context table rows).after t =
      (.error fault, t) := by
  have hcompose : resolver.compose arguments context (some ⟨table, column, rows⟩) =
      .error fault := by
    rw [Resolver.compose, h]
    rfl
  rw [values, Run.after_bind, Resolver.resolveNested_of_compose_eq_error hcompose]

/-- A load that fails gives every row its fault. -/
theorem getElem?_yielded_of_error {load : Load C} {rows : List Row} {fault : Fault} {t : Trace}
    (h : ((load.values context table rows).after t).1 = .error fault) {i : Nat}
    (hi : i < rows.length) : (load.yielded context table rows t)[i]? = some fault.toJson := by
  simp only [yielded, h, List.getElem?_map, List.getElem?_eq_getElem hi, Option.map_some]

/-- A row with a key is given the same value whether or not rows with null in the key column are
loaded with it. -/
def Spares (context : C) (table column : String) (load : Load C) (rows : List Row) (t : Trace) :
    Prop :=
  ∀ before row after, rows = before ++ row :: after → row.HasKey column →
    (load.yielded context table rows t)[before.length]? =
      (load.yielded context table (Row.nonNull column rows) t)[(Row.nonNull column before).length]?

/-- A load that fails in the same way without the rows that have null spares the others. -/
theorem spares_of_composeJoin {rows : List Row} {fault : Fault}
    (hrows : resolver.composeJoin arguments context ⟨table, column, rows⟩ = .error fault)
    (hnonNull : resolver.composeJoin arguments context ⟨table, column, Row.nonNull column rows⟩ =
      .error fault) (t : Trace) :
    (mk key column single resolver arguments below).Spares context table column rows t := by
  intro before row after hsplit hkey
  obtain ⟨hi, hi'⟩ := Row.place_of_hasKey hsplit hkey
  rw [getElem?_yielded_of_error (congrArg Prod.fst (values_of_composeJoin hrows t)) hi,
    getElem?_yielded_of_error (congrArg Prod.fst (values_of_composeJoin hnonNull t)) hi']

/-- When all rows have keys, none is left out. -/
theorem spares_of_keys (load : Load C) {rows : List Row}
    (h : ∀ row ∈ rows, row.HasKey column) (t : Trace) :
    load.Spares context table column rows t := by
  intro before row after hsplit hkey
  have hbefore : ∀ r ∈ before, r.HasKey column := fun r hr =>
    h r (hsplit ▸ List.mem_append_left _ hr)
  rw [Row.nonNull_of_keys h, Row.nonNull_of_keys hbefore]

/-- **Null in the key column takes the other rows down**, if the join fails on it: then the load asks
nothing and fails for all rows.  The other rows are spared exactly when this is not so, or when
without the rows that have null they are given the same fault. -/
theorem spares_iff (context : C) (table key column : String) (single : Bool)
    (resolver : Resolver C) (arguments : Arguments) (below : List (Load C)) (rows : List Row)
    (t : Trace) :
    let load := mk key column single resolver arguments below
    let fault : Fault := .composition (.unusableKey .null)
    let takenDown := resolver.FailsOnNull arguments context ⟨table, column, rows⟩
    (takenDown → (load.values context table rows).after t = (.error fault, t)) ∧
    (load.Spares context table column rows t ↔ (takenDown →
      ∀ before row after, rows = before ++ row :: after → row.HasKey column →
        (load.yielded context table (Row.nonNull column rows) t)[
          (Row.nonNull column before).length]? = some fault.toJson)) := by
  intro load fault takenDown
  have hdown : takenDown → (load.values context table rows).after t = (.error fault, t) :=
    fun htaken => values_of_composeJoin (Resolver.composeJoin_of_failsOnNull htaken) t
  -- taken down, a row is given the fault of null
  have hgiven : takenDown → ∀ before row after, rows = before ++ row :: after →
      row.HasKey column → (load.yielded context table rows t)[before.length]? =
        some fault.toJson := fun htaken before row after hsplit hkey =>
    getElem?_yielded_of_error (congrArg Prod.fst (hdown htaken))
      (Row.place_of_hasKey hsplit hkey).1
  refine ⟨hdown, fun hspares htaken before row after hsplit hkey => ?_, fun hall => ?_⟩
  · rw [← hspares before row after hsplit hkey]
    exact hgiven htaken before row after hsplit hkey
  · by_cases htaken : takenDown
    · intro before row after hsplit hkey
      rw [hall htaken before row after hsplit hkey]
      exact hgiven htaken before row after hsplit hkey
    · obtain hkeys | ⟨fault, hrows, hnonNull⟩ :=
        Resolver.composeJoin_of_not_failsOnNull htaken
      · exact spares_of_keys load hkeys t
      · exact spares_of_composeJoin hrows hnonNull t

/-- A post with an author, and one without. -/
def postsOfUser : List Row :=
  [[("id", .ofNat 10), ("user_id", .ofNat 1)], [("id", .ofNat 11), ("user_id", .null)]]

/-- The author of the first post is lost, although its source answers for that post alone. -/
theorem not_spares_anonymousPost :
    ¬ ∀ (resolver : Resolver Unit) (rows : List Row) (t : Trace), resolver.source.Stateless →
      (mk "author" "user_id" true resolver [] []).Spares () "posts" "user_id" rows t := by
  intro hclaim
  have hfirst := hclaim (Schema.ofTable "users" false) postsOfUser [] (fun _ _ _ => rfl) [] _ _ rfl
    ⟨.ofNat 1, rfl, rfl⟩
  exact absurd hfirst (by decide +kernel)

end Load

end RelaySql
