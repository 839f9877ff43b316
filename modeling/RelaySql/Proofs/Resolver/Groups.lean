import Mathlib.Data.List.Perm.Basic
import RelaySql.Proofs.Resolver.Keys
import RelaySql.Proofs.Run

/-!
# Resolvers — the rows of each parent

The rows of a batch come mixed.  They are shared out one after another: after any number of them,
the group of a key holds those of them that name it, in their order (`share_childrenWith`).

* `Resolver.groupRows_eq_ok`: rows are shared out exactly when each names a parent of the batch, and
  then each group is the part of the rows that name its key.
* `Resolver.groupRows_eq_error`: otherwise the batch fails to compose.
* `Resolver.resolveNested_sharesOut`: the groups of a nested resolution partition the source's rows
  under their parents.
-/

namespace RelaySql

/-- The text of the parent's key that a row names; a row may name none. -/
def Row.parentText? (row : Row) : Option String :=
  (Fields.get? row parentKeyColumn).bind Json.keyText?

/-- The rows that name a key, in order. -/
def childrenWith (rows : List Row) (key : String) : List Row :=
  rows.filter fun row => row.parentText? = some key

theorem mem_childrenWith {rows : List Row} {key : String} {row : Row} :
    row ∈ childrenWith rows key ↔ row ∈ rows ∧ row.parentText? = some key := by
  simp [childrenWith]

/-- One row more, which names `key`. -/
theorem childrenWith_snoc {row : Row} {key : String} (hk : row.parentText? = some key)
    (rows : List Row) :
    childrenWith (rows ++ [row]) =
      Function.update (childrenWith rows) key (childrenWith rows key ++ [row]) := by
  funext other
  by_cases h : other = key
  · subst h
    simp [childrenWith, hk]
  · rw [Function.update_of_ne h]
    simp [childrenWith, hk, Ne.symm h]

/-- The parts of the rows that name the keys of a list make up all rows that name one of them. -/
theorem flatMap_childrenWith_perm {keys : List String} (hkeys : keys.Nodup) (rows : List Row) :
    (keys.flatMap (childrenWith rows)).Perm
      (rows.filter fun row => ∃ key ∈ keys, row.parentText? = some key) := by
  induction keys with
  | nil => simp
  | cons key rest ih =>
      obtain ⟨hkey, hrest⟩ := List.nodup_cons.mp hkeys
      refine ((ih hrest).append_left _).trans ?_
      -- the rows that name a key of the list name the first of them, or another
      have hsplit := List.filter_append_perm (fun row : Row => row.parentText? = some key)
        (rows.filter fun row => ∃ k ∈ key :: rest, row.parentText? = some k)
      refine List.Perm.trans (List.Perm.of_eq ?_) hsplit
      rw [List.filter_filter, List.filter_filter]
      congr 1
      · refine List.filter_congr fun row _ => ?_
        by_cases h : row.parentText? = some key <;> simp [h]
      · refine List.filter_congr fun row _ => ?_
        by_cases h : row.parentText? = some key <;> simp [h, hkey]

namespace ComposedQuery

/-- The value of a parent with these rows. -/
def finishGroup (q : ComposedQuery) (rows : List Row) : Except Fault Resolution :=
  if rows = [] then .ok q.empty else q.finish rows

end ComposedQuery

namespace Resolver

variable {C : Type}

/-! ### Sharing out rows -/

theorem parentKey_of_parentText {row : Row} {key : String} (h : row.parentText? = some key)
    (table : String) : parentKey table row = .ok key := by
  obtain ⟨v, hv, hk⟩ := Option.bind_eq_some_iff.mp h
  simp only [parentKey, hv]
  exact keyText_eq_ok.mpr hk

/-- A row that names no parent of the batch fails to be shared out. -/
theorem share_eq_error {row : Row} {keys : List String}
    (h : ∀ key ∈ keys, row.parentText? ≠ some key) (table : String) (f : String → List Row) :
    ∃ cause, share table (Fields.tabulate keys f) row = .error (.composition cause) := by
  rcases hv : Fields.get? row parentKeyColumn with _ | v
  · exact ⟨.noParentKey table, by simp [share, parentKey, hv, bind, Except.bind]⟩
  · rcases ht : v.keyText? with _ | key
    · exact ⟨.unusableKey v, by simp [share, parentKey, hv, keyText_of_none ht, bind, Except.bind]⟩
    · have hkey : key ∉ keys := by
        intro hm
        exact h key hm (by simp [Row.parentText?, hv, ht])
      refine ⟨.unknownParent key table, ?_⟩
      simp [share, parentKey, hv, keyText_eq_ok.mpr ht, bind, Except.bind, Fields.get?_tabulate,
        hkey]

/-- **One row is shared out**: the rows so far, by the keys they name, are followed by one more. -/
theorem share_childrenWith {keys : List String} (hkeys : keys.Nodup) {row : Row} {key : String}
    (hk : row.parentText? = some key) (hm : key ∈ keys) (table : String) (rows : List Row) :
    share table (Fields.tabulate keys (childrenWith rows)) row =
      .ok (Fields.tabulate keys (childrenWith (rows ++ [row]))) := by
  simp only [share, parentKey_of_parentText hk, bind, Except.bind, Fields.get?_tabulate, hm, if_true]
  rw [Fields.insert_tabulate hkeys _ hm, childrenWith_snoc hk]

/-- All rows are shared out. -/
theorem foldlM_share {keys : List String} (hkeys : keys.Nodup) (table : String) {rows : List Row}
    (h : ∀ row ∈ rows, ∃ key ∈ keys, row.parentText? = some key) (before : List Row) :
    rows.foldlM (share table) (Fields.tabulate keys (childrenWith before)) =
      .ok (Fields.tabulate keys (childrenWith (before ++ rows))) := by
  induction rows generalizing before with
  | nil => simp; rfl
  | cons row rest ih =>
      obtain ⟨⟨key, hm, hk⟩, hrest⟩ := List.forall_mem_cons.mp h
      rw [List.foldlM_cons, share_childrenWith hkeys hk hm]
      refine (ih hrest (before ++ [row])).trans ?_
      rw [List.append_assoc, List.singleton_append]

/-- Sharing out fails at the first row that names no parent of the batch. -/
theorem foldlM_share_eq_error {keys : List String} (hkeys : keys.Nodup) (table : String)
    {rows : List Row} (h : ∃ row ∈ rows, ∀ key ∈ keys, row.parentText? ≠ some key)
    (before : List Row) :
    ∃ cause, rows.foldlM (share table) (Fields.tabulate keys (childrenWith before)) =
      .error (.composition cause) := by
  induction rows generalizing before with
  | nil =>
      obtain ⟨row, hrow, -⟩ := h
      cases hrow
  | cons row rest ih =>
      -- this row fails, or it is shared out and a later one fails
      by_cases hrow : ∀ key ∈ keys, row.parentText? ≠ some key
      · obtain ⟨cause, hcause⟩ := share_eq_error hrow table (childrenWith before)
        exact ⟨cause, by rw [List.foldlM_cons, hcause]; rfl⟩
      · push Not at hrow
        obtain ⟨key, hm, hk⟩ := hrow
        rw [List.foldlM_cons, share_childrenWith hkeys hk hm]
        refine ih ?_ _
        obtain ⟨bad, hbad, hnone⟩ := h
        rcases List.mem_cons.mp hbad with rfl | hbad
        · exact absurd hk (hnone key hm)
        · exact ⟨bad, hbad, hnone⟩

/-- **Rows that all name parents of the batch** are shared out by the keys they name. -/
theorem groupRows_eq_ok {keys : Fields String} (hkeys : keys.keys.Nodup) (table : String)
    {rows : List Row} (h : ∀ row ∈ rows, ∃ key ∈ keys.keys, row.parentText? = some key) :
    groupRows table keys rows = .ok (Fields.tabulate keys.keys (childrenWith rows)) := by
  rw [groupRows, Fields.mapValues_eq_tabulate]
  exact foldlM_share hkeys table h []

/-- **A row that names no parent of the batch** fails all of it. -/
theorem groupRows_eq_error {keys : Fields String} (hkeys : keys.keys.Nodup) (table : String)
    {rows : List Row} (h : ∃ row ∈ rows, ∀ key ∈ keys.keys, row.parentText? ≠ some key) :
    ∃ cause, groupRows table keys rows = .error (.composition cause) := by
  rw [groupRows, Fields.mapValues_eq_tabulate]
  exact foldlM_share_eq_error hkeys table h []

/-! ### The values of the groups -/

theorem finishGroups_eq (q : ComposedQuery) (groups : Fields (List Row)) :
    finishGroups q groups = groups.mapM fun g => (q.finishGroup g.2).map (g.1, ·) := by
  refine congrArg (List.mapM · groups) ?_
  funext g
  simp only [ComposedQuery.finishGroup]
  split <;> rfl

/-- The values of groups: each group's own. -/
theorem finishGroups_eq_ok {q : ComposedQuery} {keys : List String} {f : String → List Row}
    {groups : Fields Resolution} :
    finishGroups q (Fields.tabulate keys f) = .ok groups ↔
      ∃ value, groups = Fields.tabulate keys value ∧
        ∀ key ∈ keys, q.finishGroup (f key) = .ok (value key) := by
  simp only [finishGroups_eq, Except.mapM_eq_ok, Fields.tabulate, List.forall₂_map_left_iff]
  constructor
  · intro h
    -- no group fails, so the default is never taken
    refine ⟨fun key => ((q.finishGroup (f key)).toOption).getD q.empty, ?_⟩
    induction h with
    | nil => exact ⟨rfl, by simp⟩
    | cons hvalue _ ih =>
        obtain ⟨value, hf, rfl⟩ := Except.map_eq_ok.mp hvalue
        obtain ⟨rfl, hrest⟩ := ih
        refine ⟨by simp [hf, Except.toOption], List.forall_mem_cons.mpr ⟨?_, hrest⟩⟩
        simp [hf, Except.toOption]
  · rintro ⟨value, rfl, h⟩
    rw [List.forall₂_map_right_iff, List.forall₂_same]
    intro key hm
    rw [h key hm]
    rfl

/-! ### Nested resolutions -/

/-- How the groups of a batch with these key texts share out the rows of an answer.  Each key of the
batch has the value of the rows that name it, and each parent row gets the value of its own key. -/
structure SharesOut (r : Resolver C) (q : ComposedQuery) (parents : ParentBatch)
    (texts : List String) (answer : List Row) (groups : Fields Resolution) : Prop where
  keys : groups.keys = texts.eraseDups
  finished : ∀ key ∈ texts, childrenWith answer key ≠ [] →
    ∃ value, groups.get? key = some value ∧ q.finish (childrenWith answer key) = .ok value
  childless : ∀ key ∈ texts, childrenWith answer key = [] →
    groups.get? key = some (if r.paginated then .connection .empty else .rows [])
  whole : (texts.eraseDups.flatMap (childrenWith answer)).Perm answer
  apart : ∀ row ∈ answer, ∃! key, key ∈ texts ∧ row ∈ childrenWith answer key
  attached : ∀ field, ∃ rows, parents.attach field groups = .ok rows ∧
    List.Forall₂ (parents.Attached field groups) parents.rows rows

/-- The value of a parent without rows. -/
theorem empty_of_compose {r : Resolver C} {args : Arguments} {context : C}
    {parents : Option ParentBatch} {q : ComposedQuery}
    (hq : r.compose args context parents = .ok q) :
    q.empty = if r.paginated then .connection .empty else .rows [] := by
  obtain ⟨-, -, -, -, ⟨hp, rfl⟩ | ⟨hp, -, -, -, -, rfl⟩⟩ := compose_eq_ok hq
  · simp [hp, ComposedQuery.empty]
  · simp [hp, ComposedQuery.empty]

section Batch

variable {r : Resolver C} {args : Arguments} {context : C} {parents : ParentBatch}
  {q : ComposedQuery} {texts : List String} {answer : List Row}

/-- A batch without parents asks nothing. -/
theorem resolveNested_of_rows_nil (hq : r.compose args context (some parents) = .ok q)
    (hrows : parents.rows = []) (t : Trace) :
    (r.resolveNested args context parents).after t = (.ok [], t) := by
  have hkeys : parents.distinctKeys = .ok [] := by
    rw [ParentBatch.distinctKeys, hrows]
    rfl
  simp only [resolveNested, Run.after_bind, Run.after_lift, hq, hkeys, if_true]
  rfl

/-- The keys of a batch whose statement is composed. -/
theorem keys_of_compose (hq : r.compose args context (some parents) = .ok q) :
    ∃ keys texts, parents.distinctKeys = .ok keys ∧ parents.texts = .ok texts ∧
      keys.keys = texts.eraseDups ∧ texts.eraseDups.Nodup := by
  obtain ⟨keys, hkeys⟩ := ParentBatch.distinctKeys_of_compose hq
  obtain ⟨texts, ht, hk⟩ := ParentBatch.keys_distinctKeys hkeys
  exact ⟨keys, texts, hkeys, ht, hk, hk ▸ ParentBatch.nodup_distinctKeys hkeys⟩

/-- The answer to a batch whose rows all name a parent is shared out by the keys they name. -/
theorem resolveNested_of_placed (hq : r.compose args context (some parents) = .ok q)
    (ht : parents.texts = .ok texts) (hrows : parents.rows ≠ []) {t : Trace}
    (hanswer : r.source.answer (t.statements r.source.name) q.statement = .ok answer)
    (hplaced : ∀ row ∈ answer, ∃ key ∈ texts, row.parentText? = some key) :
    ((r.resolveNested args context parents).after t).1 =
      finishGroups q (Fields.tabulate texts.eraseDups (childrenWith answer)) := by
  obtain ⟨keys, texts', hkeys, ht', hk, hnodup⟩ := keys_of_compose hq
  obtain rfl : texts' = texts := Except.ok.inj (ht'.symm.trans ht)
  have hgroups := groupRows_eq_ok (hk ▸ hnodup) r.table (by
    simpa only [hk, List.mem_eraseDups] using hplaced)
  rw [resolveNested_after hq hkeys (ParentBatch.distinctKeys_ne_nil hkeys hrows), hanswer]
  simp only [hgroups, hk]
  rfl

/-- An answer with a row that names no parent of the batch fails it. -/
theorem resolveNested_of_unplaced (hq : r.compose args context (some parents) = .ok q)
    (ht : parents.texts = .ok texts) (hrows : parents.rows ≠ []) {t : Trace}
    (hanswer : r.source.answer (t.statements r.source.name) q.statement = .ok answer)
    (hbad : ∃ row ∈ answer, ∀ key ∈ texts, row.parentText? ≠ some key) :
    ∃ cause, ((r.resolveNested args context parents).after t).1 =
      .error (.composition cause) := by
  obtain ⟨keys, texts', hkeys, ht', hk, hnodup⟩ := keys_of_compose hq
  obtain rfl : texts' = texts := Except.ok.inj (ht'.symm.trans ht)
  obtain ⟨cause, hcause⟩ := groupRows_eq_error (hk ▸ hnodup) r.table (by
    simpa only [hk, List.mem_eraseDups] using hbad)
  refine ⟨cause, ?_⟩
  rw [resolveNested_after hq hkeys (ParentBatch.distinctKeys_ne_nil hkeys hrows), hanswer]
  simp only [hcause]
  rfl

/-- Groups that hold the value of every key's rows share them out. -/
theorem sharesOut_tabulate {value : String → Resolution}
    (hq : r.compose args context (some parents) = .ok q)
    (ht : parents.texts = .ok texts) (hnodup : texts.eraseDups.Nodup)
    (hplaced : ∀ row ∈ answer, ∃ key ∈ texts, row.parentText? = some key)
    (hvalue : ∀ key ∈ texts, q.finishGroup (childrenWith answer key) = .ok (value key)) :
    SharesOut r q parents texts answer (Fields.tabulate texts.eraseDups value) := by
  have hget : ∀ key ∈ texts,
      (Fields.tabulate texts.eraseDups value).get? key = some (value key) := by
    intro key hm
    rw [Fields.get?_tabulate, if_pos (List.mem_eraseDups.mpr hm)]
  refine ⟨Fields.keys_tabulate _ _, ?_, ?_, ?_, ?_, ?_⟩
  · intro key hm hne
    have hv := hvalue key hm
    rw [ComposedQuery.finishGroup, if_neg hne] at hv
    exact ⟨value key, hget key hm, hv⟩
  · intro key hm hnil
    have hv := hvalue key hm
    rw [ComposedQuery.finishGroup, if_pos hnil, empty_of_compose hq] at hv
    rw [hget key hm, Except.ok.inj hv]
  · refine (flatMap_childrenWith_perm hnodup answer).trans (.of_eq ?_)
    refine List.filter_eq_self.mpr fun row hrow => ?_
    obtain ⟨key, hm, hk⟩ := hplaced row hrow
    exact decide_eq_true ⟨key, List.mem_eraseDups.mpr hm, hk⟩
  · intro row hrow
    obtain ⟨key, hm, hk⟩ := hplaced row hrow
    refine ⟨key, ⟨hm, mem_childrenWith.mpr ⟨hrow, hk⟩⟩, ?_⟩
    rintro other ⟨-, hother⟩
    have hsame := (mem_childrenWith.mp hother).2
    rw [hk] at hsame
    exact (Option.some.inj hsame).symm
  · intro field
    refine ParentBatch.attach_eq_ok ht field fun key hm => ?_
    rw [Fields.keys_tabulate]
    exact List.mem_eraseDups.mpr hm

/-- **Nested rows are partitioned under their parents.**  An answer each of whose rows names a parent
of the batch is shared out, none of its rows lost, doubled or given to another parent; and the batch
fails to compose when a row names none of its parents. -/
theorem resolveNested_sharesOut (hq : r.compose args context (some parents) = .ok q) (t : Trace) :
    ∃ texts, parents.texts = .ok texts ∧
      (parents.rows = [] → (r.resolveNested args context parents).after t = (.ok [], t) ∧
        ∀ field, parents.attach field [] = .ok []) ∧
      (parents.rows ≠ [] → ∀ answer,
        r.source.answer (t.statements r.source.name) q.statement = .ok answer →
        (∀ groups, ((r.resolveNested args context parents).after t).1 = .ok groups →
          SharesOut r q parents texts answer groups) ∧
        ((∃ row ∈ answer, ∀ key ∈ texts, row.parentText? ≠ some key) →
          ∃ cause, ((r.resolveNested args context parents).after t).1 =
            .error (.composition cause)) ∧
        ((∀ row ∈ answer, ∃ key ∈ texts, row.parentText? = some key) →
          (∀ key ∈ texts, ∃ value, q.finishGroup (childrenWith answer key) = .ok value) →
          ∃ groups, ((r.resolveNested args context parents).after t).1 = .ok groups)) := by
  obtain ⟨-, texts, -, ht, -, hnodup⟩ := keys_of_compose hq
  refine ⟨texts, ht, fun hrows => ⟨resolveNested_of_rows_nil hq hrows t, fun field => ?_⟩,
    fun hrows answer hanswer => ⟨fun groups hgroups => ?_,
      resolveNested_of_unplaced hq ht hrows hanswer, fun hplaced hvalues => ?_⟩⟩
  · rw [ParentBatch.attach, hrows]
    rfl
  · have hplaced : ∀ row ∈ answer, ∃ key ∈ texts, row.parentText? = some key := by
      by_contra hbad
      push Not at hbad
      obtain ⟨cause, hcause⟩ := resolveNested_of_unplaced hq ht hrows hanswer hbad
      rw [hcause] at hgroups
      cases hgroups
    rw [resolveNested_of_placed hq ht hrows hanswer hplaced] at hgroups
    obtain ⟨value, rfl, hvalue⟩ := finishGroups_eq_ok.mp hgroups
    exact sharesOut_tabulate hq ht hnodup hplaced fun key hm =>
      hvalue key (List.mem_eraseDups.mpr hm)
  -- for `choose!`, whose functions are total
  · have : Nonempty Resolution := ⟨q.empty⟩
    choose! value hvalue using hvalues
    rw [resolveNested_of_placed hq ht hrows hanswer hplaced]
    exact ⟨_, finishGroups_eq_ok.mpr ⟨value, rfl, fun key hm =>
      hvalue key (List.mem_eraseDups.mp hm)⟩⟩

end Batch

/-- Parents of which two share a key and one has no children. -/
def fourParents : ParentBatch :=
  ⟨"users", "id", [[("id", .ofNat 1)], [("id", .ofNat 2)], [("id", .ofNat 1)], [("id", .ofNat 3)]]⟩

/-- Children of two of them, mixed. -/
def mixedChildren : List Row :=
  [[("id", .ofNat 20), (parentKeyColumn, .ofNat 2)],
    [("id", .ofNat 10), (parentKeyColumn, .string "1")],
    [("id", .ofNat 21), (parentKeyColumn, .ofNat 2)],
    [("id", .ofNat 11), (parentKeyColumn, .ofNat 1)]]

/-- A field whose source returns them. -/
def ofMixedChildren : Resolver Unit :=
  ⟨"orders", some fun _ _ _ _ => .ok "users.id = orders.user_id", none, [], false,
    .ofAnswers "memory" [.ok mixedChildren]⟩

theorem resolveNested_sharesOut_mixedChildren :
    ∃ q groups, ofMixedChildren.compose [] () (some fourParents) = .ok q ∧
      ((ofMixedChildren.resolveNested [] () fourParents).after []).1 = .ok groups ∧
      SharesOut ofMixedChildren q fourParents ["1", "2", "1", "3"] mixedChildren groups := by
  obtain ⟨q, groups, hq, hgroups⟩ : ∃ q groups,
      ofMixedChildren.compose [] () (some fourParents) = .ok q ∧
        ((ofMixedChildren.resolveNested [] () fourParents).after []).1 = .ok groups :=
    ⟨_, _, rfl, rfl⟩
  obtain ⟨texts, ht, -, hbatch⟩ := resolveNested_sharesOut hq []
  have htexts : fourParents.texts = .ok ["1", "2", "1", "3"] := rfl
  obtain rfl : texts = _ := Except.ok.inj (ht.symm.trans htexts)
  obtain ⟨hshares, -, -⟩ := hbatch (by decide) mixedChildren rfl
  exact ⟨q, groups, hq, hgroups, hshares groups hgroups⟩

end Resolver

end RelaySql
