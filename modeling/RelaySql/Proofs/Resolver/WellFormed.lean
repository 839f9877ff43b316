import RelaySql.Proofs.Resolver.KeyList

/-!
# Resolvers — the statements that reach a source

What a statement must hold to be answered is checked in four places: when a resolver is built, when
a join and a filter are composed, when the keys of a batch are taken, and before a batch without
rows is resolved.

* `Draft.build_eq_ok`: what a resolver that is built holds of the parts it was given.
* `ParentBatch.nodup_literals`: the keys of a batch have literals of their own, whatever kinds of
  values they are.
* `Resolver.wellFormed_of_compose`, `Resolver.join_wellFormed_of_compose`: the statement of a composed
  query is well formed, and so is its join.
* `Resolver.executions_wellFormed`: a resolution hands one statement to its source, a well-formed
  one, or none.
-/

namespace RelaySql

/-! ### Resolvers that are built -/

namespace Draft

variable {C : Type}

namespace Part

/-- The column that a part adds to the order. -/
def column? : Part C → Option OrderColumn
  | orderBy column => some column
  | _ => none

/-- Whether a part says that the field is served in pages. -/
def paginated? : Part C → Option Bool
  | paginated p => some p
  | _ => none

end Part

/-- **The order of a draft** has the columns it was given, in the order they were given. -/
theorem orderBy_ofParts (parts : List (Part C)) :
    (ofParts parts).orderBy = parts.filterMap Part.column? := by
  induction parts using List.reverseRecOn with
  | nil => rfl
  | append_singleton parts part ih =>
      rw [ofParts, List.foldl_append, List.filterMap_append, ← ih]
      cases part <;> simp [add, ofParts, Part.column?]

/-- A draft is served in pages if it was told so last. -/
theorem paginated_ofParts (parts : List (Part C)) :
    (ofParts parts).paginated = (parts.filterMap Part.paginated?).getLast?.getD false := by
  induction parts using List.reverseRecOn with
  | nil => rfl
  | append_singleton parts part ih =>
      rw [ofParts, List.foldl_append, List.filterMap_append]
      cases part <;> simp_all [add, ofParts, Part.paginated?]

/-- **What a resolver that is built holds**: a table, an order without blank columns, which pages
need, and the parts of the draft. -/
theorem build_eq_ok {d : Draft C} {r : Resolver C} (h : d.build = .ok r) :
    Text.isBlank r.table = false ∧ (r.paginated = true → r.orderBy ≠ []) ∧
      (∀ o ∈ r.orderBy, Text.isBlank o.column = false) ∧ r.orderBy = d.orderBy ∧
      r.paginated = d.paginated := by
  simp only [build] at h
  split at h
  · cases h
  · next table htable =>
      split at h
      · cases h
      · next hpages =>
          split at h
          · cases h
          · next hcolumns =>
              split at h
              · cases h
              · cases h
                refine ⟨?_, fun hp ho => hpages ⟨hp, ho⟩, fun o ho => ?_, rfl, rfl⟩
                · obtain ⟨-, hblank⟩ := Option.filter_eq_some_iff.mp htable
                  simpa using hblank
                · simpa using List.find?_eq_none.mp hcolumns o ho

end Draft

/-! ### Statements and joins -/

namespace Statement

/-- The text of the statement bounds the rows by this limit: all of them at top level, and the places
of each parent's rows under a batch. -/
def LimitsTo (s : Statement) (n : Nat) : Prop :=
  match s.join with
  | none => "LIMIT " ++ toString (rowCount n) ∈ s.clauses
  | some _ => ∃ bounds, s.offsetBounds? = some bounds ∧
      bounds.stop = some (rowCount (addUpTo64 (s.offset.getD 0) n)) ∧ bounds.sql ∈ s.clauses

/-- What the statement of every resolution holds, for a field with these columns of order. -/
structure WellFormed (s : Statement) (orderBy : List OrderColumn) (paginated : Bool) : Prop where
  table : Text.isBlank s.table = false
  order : s.orderBy = orderBy
  columns : ∀ o ∈ s.orderBy, Text.isBlank o.column = false
  filter : ∀ condition, s.filter = some condition → Text.isBlank condition = false
  counted : s.countTotal = paginated
  ordered : s.countTotal = true → s.orderBy ≠ []
  limitOfPage : s.limit.isSome → s.countTotal = true
  offsetOfPage : s.offset.isSome → s.countTotal = true
  offset : s.offset ≠ some 0
  limited : ∀ n, s.limit = some n → s.LimitsTo n

/-- A limit of a statement that counts its rows is part of its text. -/
theorem limitsTo_of_counted {s : Statement} (hcount : s.countTotal = true) {n : Nat}
    (h : s.limit = some n) : s.LimitsTo n := by
  unfold LimitsTo
  split
  · next hjoin => simp [clauses, hjoin, topClauses, h]
  · next join hjoin =>
      have hbounds : s.offsetBounds? = some ⟨rowCount (s.offset.getD 0),
          some (rowCount (addUpTo64 (s.offset.getD 0) n))⟩ := by
        simp [offsetBounds?, hjoin, hcount, h]
      exact ⟨_, hbounds, rfl, by simp [clauses, hjoin, hbounds]⟩

end Statement

/-- What the join of every nested resolution holds, for a child's table. -/
structure Join.WellFormed (j : Join) (child : String) : Prop where
  condition : Text.isBlank j.condition = false
  parentAlias : j.parentAlias ≠ child
  keys : j.parentKeys ≠ []
  distinct : j.parentKeys.Nodup
  listed : Statement.commaSeparated j.parentKeys ≠ ""

theorem Sql.literal_ne_empty {v : Json} {l : String} (h : literal v = .ok l) : l ≠ "" := by
  cases v with
  | null | array _ | object _ => cases h
  | number n =>
      cases h
      exact fun he => n.toList_text_ne_nil (congrArg String.toList he)
  | string s =>
      cases h
      exact fun he => List.ne_nil_of_mem (quote_mem s) (congrArg String.toList he)
  | boolean b =>
      cases h
      cases b <;> decide

namespace ParentBatch

variable {p : ParentBatch} {keys : Fields String}

/-- A batch calls its table by another name than the child's. -/
theorem aliasFor_ne (p : ParentBatch) (child : String) : p.aliasFor child ≠ child := by
  simp only [aliasFor]
  split
  · next h =>
      subst h
      intro he
      have hlength := congrArg String.length he
      rw [String.length_append] at hlength
      exact absurd hlength (by simp [show "_parent".length = 7 from rfl])
  · next h => exact h

/-- Each key of a batch is the text of some value, and stands with the literal of that value. -/
theorem value_of_mem_distinctKeys (h : p.distinctKeys = .ok keys) {pair : String × String}
    (hm : pair ∈ keys) : ∃ v, keyText v = .ok pair.1 ∧ Sql.literal v = .ok pair.2 := by
  rw [distinctKeys_eq] at h
  obtain ⟨entries, hentries, rfl⟩ := Except.map_eq_ok.mp h
  obtain ⟨row, -, hrow⟩ := Except.exists_of_mem_mapM hentries (Fields.mem_of_mem_firsts hm)
  obtain ⟨v, -, hrow⟩ := Except.bind_eq_ok.mp hrow
  obtain ⟨key, hkey, hrow⟩ := Except.bind_eq_ok.mp hrow
  obtain ⟨l, hl, hrow⟩ := Except.bind_eq_ok.mp hrow
  cases hrow
  exact ⟨v, hkey, hl⟩

/-- **The keys of a batch have literals of their own**: values with the same literal have the same
text, and the keys are distinct texts. -/
theorem nodup_literals (h : p.distinctKeys = .ok keys) : keys.values.Nodup := by
  refine List.Nodup.map_on ?_ (List.Nodup.of_map _ (nodup_distinctKeys h))
  intro a ha b hb hl
  obtain ⟨v, hv, hvl⟩ := value_of_mem_distinctKeys h ha
  obtain ⟨w, hw, hwl⟩ := value_of_mem_distinctKeys h hb
  have htext := Sql.keyText_of_literal hvl (hl ▸ hwl)
  rw [keyText_eq_ok.mp hv, keyText_eq_ok.mp hw] at htext
  exact Prod.ext (Option.some.inj htext) hl

/-- The keys of a batch with rows make a list that is not empty. -/
theorem commaSeparated_ne_empty (h : p.distinctKeys = .ok keys) (hne : keys ≠ []) :
    Statement.commaSeparated keys.values ≠ "" := by
  obtain ⟨pair, rest, rfl⟩ := List.exists_cons_of_ne_nil hne
  obtain ⟨v, -, hl⟩ := value_of_mem_distinctKeys h List.mem_cons_self
  have hl := Sql.literal_ne_empty hl
  rw [Fields.values, List.map_cons]
  cases List.map Prod.snd rest with
  | nil => rwa [Statement.commaSeparated, String.intercalate_singleton]
  | cons l ls =>
      rw [Sql.commaSeparated_cons]
      intro he
      exact hl (String.append_eq_empty_iff.mp (String.append_eq_empty_iff.mp he).1).1

end ParentBatch

/-! ### Statements of a resolver -/

namespace Resolver

variable {C : Type} {r : Resolver C} {args : Arguments} {context : C}

/-- A filter that is composed is not blank. -/
theorem filter_of_composeFilter {condition : String}
    (h : r.composeFilter args context = .ok (some condition)) :
    Text.isBlank condition = false := by
  simp only [composeFilter] at h
  split at h
  · cases h
  · obtain ⟨found, -, h⟩ := Except.bind_eq_ok.mp h
    split at h
    · cases h
    · split at h
      · cases h
      · next hblank =>
          cases h
          exact Bool.eq_false_iff.mpr hblank

/-- **The join under a batch with rows** is well formed. -/
theorem join_wellFormed {parents : ParentBatch} {join : Join} (hrows : parents.rows ≠ [])
    (h : r.composeJoin args context parents = .ok join) : join.WellFormed r.table := by
  simp only [composeJoin] at h
  split at h
  · cases h
  · obtain ⟨condition, -, h⟩ := Except.bind_eq_ok.mp h
    split at h
    · cases h
    · next hblank =>
        obtain ⟨keys, hkeys, h⟩ := Except.bind_eq_ok.mp h
        cases h
        have hne := ParentBatch.distinctKeys_ne_nil hkeys hrows
        exact ⟨Bool.eq_false_iff.mpr hblank, parents.aliasFor_ne r.table,
          fun he => hne (List.map_eq_nil_iff.mp he), ParentBatch.nodup_literals hkeys,
          ParentBatch.commaSeparated_ne_empty hkeys hne⟩

theorem join_wellFormed_of_compose {parents : ParentBatch} {q : ComposedQuery}
    (hq : r.compose args context (some parents) = .ok q) (hrows : parents.rows ≠ []) :
    ∃ join, q.statement.join = some join ∧ join.WellFormed r.table := by
  obtain ⟨join, filter, hjoin, -, hq⟩ := compose_eq_ok hq
  obtain ⟨join, hcomposed, rfl⟩ := Except.map_eq_ok.mp hjoin
  refine ⟨join, ?_, join_wellFormed hrows hcomposed⟩
  rcases hq with ⟨-, rfl⟩ | ⟨-, request, bounds, -, -, rfl⟩ <;> rfl

/-- **The statement of a composed query** is well formed, if the resolver was built. -/
theorem wellFormed_of_compose {d : Draft C} (hr : d.build = .ok r) {parents : Option ParentBatch}
    {q : ComposedQuery} (hq : r.compose args context parents = .ok q) :
    q.statement.WellFormed d.orderBy d.paginated := by
  obtain ⟨htable, hpages, hcolumns, horder, hpaginated⟩ := Draft.build_eq_ok hr
  obtain ⟨join, filter, -, hfilter, hq⟩ := compose_eq_ok hq
  have hblank : ∀ condition, filter = some condition → Text.isBlank condition = false := by
    rintro condition rfl
    exact filter_of_composeFilter hfilter
  rcases hq with ⟨hp, rfl⟩ | ⟨hp, request, bounds, -, -, rfl⟩
  · exact
      { table := htable
        order := horder
        columns := hcolumns
        filter := hblank
        counted := hp.symm.trans hpaginated
        ordered := by intro h; cases h
        limitOfPage := by intro h; cases h
        offsetOfPage := by intro h; cases h
        offset := by intro h; cases h
        limited := by intro limit h; cases h }
  · have hoffset : (windowed (r.base join filter) (.ofBounds bounds)).offset ≠ some 0 := by
      simp only [windowed]
      split
      · intro h
        cases h
      · next hne => exact fun h => hne (Option.some.inj h)
    exact
      { table := htable
        order := horder
        columns := hcolumns
        filter := hblank
        counted := hp.symm.trans hpaginated
        ordered := fun _ => hpages hp
        limitOfPage := fun _ => rfl
        offsetOfPage := fun _ => rfl
        offset := hoffset
        limited := fun _ => Statement.limitsTo_of_counted rfl }

/-- **Every statement that reaches a source is well formed, and at most one does per resolution.**
A resolver that is built from parts hands nothing to its source when the query fails to be composed
or the batch has no rows.  Otherwise it hands over one statement, whatever the source answers, with
the columns of order that the parts gave, and under a batch with a join. -/
theorem executions_wellFormed {parts : List (Draft.Part C)}
    (hr : (Draft.ofParts parts).build = .ok r) (args : Arguments) (context : C) :
    ((∀ e, r.compose args context none = .error e → ∀ t,
        (r.resolve args context).after t = (.error e, t)) ∧
      ∀ q, r.compose args context none = .ok q →
        (∀ t, Trace.executions ((r.resolve args context).after t).2 =
          t.executions ++ [(r.source.name, q.statement)]) ∧
        q.statement.WellFormed (parts.filterMap Draft.Part.column?)
          ((parts.filterMap Draft.Part.paginated?).getLast?.getD false) ∧
        q.statement.join = none) ∧
    ∀ parents : ParentBatch,
      (∀ e, r.compose args context (some parents) = .error e → ∀ t,
        (r.resolveNested args context parents).after t = (.error e, t)) ∧
      ∀ q, r.compose args context (some parents) = .ok q →
        (parents.rows = [] → ∀ t, (r.resolveNested args context parents).after t = (.ok [], t)) ∧
        (parents.rows ≠ [] →
          (∀ t, Trace.executions ((r.resolveNested args context parents).after t).2 =
            t.executions ++ [(r.source.name, q.statement)]) ∧
          q.statement.WellFormed (parts.filterMap Draft.Part.column?)
            ((parts.filterMap Draft.Part.paginated?).getLast?.getD false) ∧
          ∃ join, q.statement.join = some join ∧ join.WellFormed r.table) := by
  rw [← Draft.orderBy_ofParts, ← Draft.paginated_ofParts]
  refine ⟨⟨fun e hq t => ?_, fun q hq => ?_⟩, fun parents => ⟨fun e hq t => ?_, fun q hq =>
    ⟨fun hrows t => resolveNested_of_rows_nil hq hrows t, fun hrows => ?_⟩⟩⟩
  · exact resolve_of_compose_eq_error hq t
  · exact ⟨executions_resolve hq, wellFormed_of_compose hr hq, (statement_of_compose hq).2⟩
  · exact resolveNested_of_compose_eq_error hq t
  · obtain ⟨keys, hkeys⟩ := ParentBatch.distinctKeys_of_compose hq
    have hne := ParentBatch.distinctKeys_ne_nil hkeys hrows
    exact ⟨executions_resolveNested hq hkeys hne, wellFormed_of_compose hr hq,
      join_wellFormed_of_compose hq hrows⟩

/-- A field given its parts in some order, two of them twice. -/
def booksInParts : List (Draft.Part Unit) :=
  [.paginated false, .orderBy ⟨"title", .descending⟩, .table "authors",
    .source (.ofAnswers "memory" [.error (.rowDecode "no row")]),
    .join fun parent child _ _ => .ok (parent ++ ".id = " ++ child ++ ".author"),
    .orderBy ⟨"id", .ascending⟩, .table "books", .paginated true]

/-- Books whose keys look alike as values of different kinds. -/
def mixedBooks : ParentBatch :=
  ⟨"books", "id", [[("id", .string "1")], [("id", .string "TRUE")], [("id", .boolean true)],
    [("id", .ofNat 1)]]⟩

theorem executions_wellFormed_mixedBooks : ∃ (r : Resolver Unit) (q : ComposedQuery) (join : Join),
    (Draft.ofParts booksInParts).build = .ok r ∧
    r.compose [("first", .number (.whole 3))] () (some mixedBooks) = .ok q ∧
    (∀ t, Trace.executions ((r.resolveNested [("first", .number (.whole 3))] () mixedBooks).after
      t).2 = t.executions ++ [("memory", q.statement)]) ∧
    q.statement.WellFormed [⟨"title", .descending⟩, ⟨"id", .ascending⟩] true ∧
    q.statement.join = some join ∧ join.WellFormed "books" ∧
    join.parentKeys = ["'1'", "'TRUE'", "TRUE"] := by
  obtain ⟨r, hr⟩ : ∃ r, (Draft.ofParts booksInParts).build = .ok r := ⟨_, rfl⟩
  obtain ⟨-, hnested⟩ := executions_wellFormed hr [("first", .number (.whole 3))] ()
  cases hr
  obtain ⟨-, hcomposed⟩ := hnested mixedBooks
  obtain ⟨-, hasked⟩ := hcomposed _ rfl
  obtain ⟨hexecutions, hwellFormed, join, hjoin, hnestedJoin⟩ := hasked (by decide)
  refine ⟨_, _, join, rfl, rfl, hexecutions, hwellFormed, hjoin, hnestedJoin, ?_⟩
  cases hjoin
  rfl

end Resolver

end RelaySql
