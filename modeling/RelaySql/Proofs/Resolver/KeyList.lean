import RelaySql.Proofs.Resolver.Keyed
import RelaySql.Proofs.Sql.Lexer

/-!
# Resolvers — the list of keys in a statement

A statement under a batch of parents asks for their keys by a list of literals.  Everything else in
the text of the statement is the same for every list of keys, and the literals are read back from
the list as they were put in, whatever characters the keys hold.

* `Statement.lists_sql`: the place of the list in the text of a statement.
* `ParentBatch.literals_of_keyed`: the literals of a batch's keys, which tell them apart as their
  texts do.
* `Resolver.lexList_keys`: the list is read back to the literals of the batch's keys.
-/

namespace RelaySql

/-! ### The place of the list -/

namespace Statement

/-- The statement with other keys to ask for, as a query with other keys has it. -/
def withKeys (s : Statement) (keys : List String) : Statement :=
  { s with join := s.join.map fun join => { join with parentKeys := keys } }

/-- The text asks for the keys it is made for by a list of them, and is otherwise the same for all
keys. -/
def Lists (key : String) (text : List String → String) : Prop :=
  ∃ before after, ∀ keys, text keys =
    before ++ "WHERE " ++ key ++ " IN (" ++ commaSeparated keys ++ ")" ++ after

/-- A clause that lists the keys, among others that do not depend on them. -/
theorem Lists.lines {key : String} {text : List String → String} (h : Lists key text)
    (clauses rest : List String) : Lists key fun keys => lines (clauses ++ text keys :: rest) := by
  obtain ⟨before, after, h⟩ := h
  have hrest : ∃ tail, ∀ s, Statement.lines (s :: rest) = s ++ tail := by
    cases rest with
    | nil => exact ⟨"", fun s => String.intercalate_singleton.trans String.append_empty.symm⟩
    | cons t rest =>
        exact ⟨"\n" ++ Statement.lines (t :: rest), fun s =>
          String.intercalate_cons_cons.trans String.append_assoc⟩
  obtain ⟨tail, htail⟩ := hrest
  cases clauses with
  | nil =>
      refine ⟨before, after ++ tail, fun keys => ?_⟩
      simp only [List.nil_append, htail, h keys, String.append_assoc]
  | cons clause clauses =>
      refine ⟨Statement.lines (clause :: clauses) ++ "\n" ++ before, after ++ tail, fun keys => ?_⟩
      have hsplit : Statement.lines (clause :: clauses ++ text keys :: rest) =
          Statement.lines (clause :: clauses) ++ "\n" ++ Statement.lines (text keys :: rest) :=
        String.intercalate_append_of_ne_nil (List.cons_ne_nil _ _) (List.cons_ne_nil _ _)
      refine hsplit.trans ?_
      simp only [htail, h keys, String.append_assoc]

/-- The clauses that find the rows of a batch list its keys. -/
theorem lists_nestedClauses (s : Statement) (join : Join) (rest : List String) :
    Lists join.qualifiedKey fun keys =>
      lines (s.nestedClauses { join with parentKeys := keys } ++ rest) := by
  have hclause : Lists join.qualifiedKey fun keys =>
      "WHERE " ++ join.qualifiedKey ++ " IN (" ++ commaSeparated keys ++ ")" :=
    ⟨"", "", fun keys => by rw [String.empty_append, String.append_empty]⟩
  have hclauses : ∀ keys, s.nestedClauses { join with parentKeys := keys } ++ rest =
      ["SELECT " ++ s.table ++ ".*, " ++ s.nestedColumns join.qualifiedKey, "FROM " ++ s.table,
        join.clause] ++
        ("WHERE " ++ join.qualifiedKey ++ " IN (" ++ commaSeparated keys ++ ")") ::
          ((s.filter.map fun condition => "AND (" ++ condition ++ ")").toList ++ rest) :=
    fun _ => rfl
  simp only [hclauses]
  exact hclause.lines _ _

theorem offsetBounds?_withKeys (s : Statement) (keys : List String) :
    (s.withKeys keys).offsetBounds? = s.offsetBounds? := by
  simp only [offsetBounds?, withKeys, Option.isSome_map]

theorem order_withKeys (s : Statement) (keys : List String) :
    (s.withKeys keys).order = s.order := by
  simp only [order, offsetBounds?_withKeys]
  simp only [withKeys]
  cases s.join <;> rfl

/-- **The place of the list**: a nested statement lists the keys of its batch once, where it asks
for the rows of these parents, also where it cuts a page out for each parent. -/
theorem lists_sql {s : Statement} {join : Join} (hjoin : s.join = some join) :
    Lists join.qualifiedKey fun keys => (s.withKeys keys).sql := by
  have hclauses : ∀ keys, (s.withKeys keys).clauses =
      s.offsetBounds?.elim
        (s.nestedClauses { join with parentKeys := keys } ++ s.orderClause s.order)
        fun bounds =>
          ["SELECT * FROM ("] ++ lines (s.nestedClauses { join with parentKeys := keys } ++ []) ::
            ([") AS \"$window\"", bounds.sql] ++ s.orderClause s.order) := by
    intro keys
    simp only [clauses, offsetBounds?_withKeys, order_withKeys, List.append_nil]
    simp only [withKeys, hjoin, Option.map_some]
    cases s.offsetBounds? <;> rfl
  simp only [sql, hclauses]
  rcases s.offsetBounds? with _ | bounds
  · exact lists_nestedClauses s join _
  · exact (lists_nestedClauses s join []).lines _ _

end Statement

/-! ### The literals of a batch -/

/-- The literal of a value of this kind, as it is read. -/
def KeyKind.lexeme : KeyKind → String → Sql.Lexeme
  | numbers, key => .word key
  | strings, key => .text key
  | booleans, key => .word (Sql.truth (key = "true"))

theorem KeyKind.sql_lexeme (kind : KeyKind) (key : String) :
    (kind.lexeme key).sql = kind.literal key := by
  cases kind <;> rfl

theorem Sql.isWordChar_of_spells {c : Char} (h : spells c = true) : isWordChar c = true := by
  simp only [spells, Bool.or_eq_true, beq_iff_eq] at h
  simp only [isWordChar, Char.isAlphanum, Bool.or_eq_true, beq_iff_eq]
  rcases h with (((h | h) | h) | h) | rfl
  · exact .inl (.inl (.inl (.inr h)))
  · exact .inl (.inl (.inr h))
  · exact .inl (.inr h)
  · exact .inr h
  · decide

theorem Sql.isWhole_truth (b : Bool) : (Lexeme.word (truth b)).IsWhole := by
  have hchars : (truth b).toList.all isWordChar = true := by cases b <;> rfl
  have hne : (truth b).toList ≠ [] := by cases b <;> decide
  exact ⟨hne, List.all_eq_true.mp hchars⟩

theorem KeyKind.isWhole_of_holds {kind : KeyKind} {v : Json} {key : String} (h : kind.Holds v)
    (hk : keyText v = .ok key) : (kind.lexeme key).IsWhole := by
  cases kind with
  | numbers =>
      obtain ⟨n, rfl⟩ := h
      cases hk
      exact ⟨n.toList_text_ne_nil, fun c hc => Sql.isWordChar_of_spells (n.spelled_text c hc)⟩
  | strings => trivial
  | booleans => exact Sql.isWhole_truth _

theorem KeyKind.Names.eq_of_literal {kind : KeyKind} {key key' : String} (h : kind.Names key)
    (h' : kind.Names key') (hl : kind.literal key = kind.literal key') : key = key' := by
  obtain ⟨v, hk, hv⟩ := h
  obtain ⟨w, hk', hw⟩ := h'
  have htext := Sql.keyText_of_literal hv (hl ▸ hw)
  rw [keyText_eq_ok.mp hk, keyText_eq_ok.mp hk'] at htext
  exact Option.some.inj htext

namespace ParentBatch

variable {p : ParentBatch} {kind : KeyKind}

/-- The literal of the key of a row. -/
def literalOf (p : ParentBatch) (row : Row) : Except Fault String := do
  Sql.literal (← p.keyValue row)

theorem literalOf_of_keyed {row : Row} (h : row.Keyed p.keyColumn kind) :
    ∃ key, kind.Names key ∧ (kind.lexeme key).IsWhole ∧ p.keyOf row = .ok key ∧
      p.literalOf row = .ok (kind.literal key) := by
  obtain ⟨v, hv, hkind⟩ := h
  obtain ⟨key, hk, hl⟩ := KeyKind.literal_of_holds hkind
  refine ⟨key, ⟨v, hk, hl⟩, KeyKind.isWhole_of_holds hkind hk, ?_, ?_⟩
  · simp only [keyOf, keyValue, hv, bind, Except.bind, hk]
  · simp only [literalOf, keyValue, hv, bind, Except.bind, hl]

/-- **Two rows share a key if they share its literal**, and only then. -/
theorem keyOf_eq_iff_literalOf {row row' : Row} (h : row.Keyed p.keyColumn kind)
    (h' : row'.Keyed p.keyColumn kind) :
    p.keyOf row = p.keyOf row' ↔ p.literalOf row = p.literalOf row' := by
  obtain ⟨key, hn, -, hk, hl⟩ := literalOf_of_keyed h
  obtain ⟨key', hn', -, hk', hl'⟩ := literalOf_of_keyed h'
  rw [hk, hk', hl, hl', Except.ok.injEq, Except.ok.injEq]
  exact ⟨fun h => h ▸ rfl, hn.eq_of_literal hn'⟩

/-- The literals of the keys of a batch, with those that occur before left out. -/
theorem literals_of_keyed (h : ∀ row ∈ p.rows, row.Keyed p.keyColumn kind) :
    ∃ (keys : Fields String) (literals : List String) (lexemes : List Sql.Lexeme),
      p.distinctKeys = .ok keys ∧
      p.rows.mapM p.literalOf = .ok literals ∧ keys.values = literals.eraseDups ∧
      lexemes.map Sql.Lexeme.sql = keys.values ∧ ∀ l ∈ lexemes, l.IsWhole := by
  obtain ⟨keys, texts, hkeys, ht, hnames, hvalues⟩ := distinctKeys_of_keyed h
  have hread : ∀ row key, row.Keyed p.keyColumn kind ∧ p.keyOf row = .ok key →
      p.literalOf row = .ok (kind.literal key) ∧ (kind.lexeme key).IsWhole := by
    rintro row key ⟨hrow, hkey⟩
    obtain ⟨_, -, hwhole, hk, hl⟩ := literalOf_of_keyed hrow
    cases hk.symm.trans hkey
    exact ⟨hl, hwhole⟩
  have hrows := ((List.forall₂_and_left _ _).mpr ⟨h, Except.mapM_eq_ok.mp ht⟩).imp hread
  refine ⟨keys, texts.map kind.literal, texts.eraseDups.map kind.lexeme, hkeys, ?_, ?_, ?_, ?_⟩
  · rw [Except.mapM_eq_ok, List.forall₂_map_right_iff]
    exact hrows.imp fun _ _ h => h.1
  · rw [hvalues, Fields.eraseDups_map]
    exact fun m hm n hn => (hnames m hm).eq_of_literal (hnames n hn)
  · rw [hvalues, List.map_map]
    exact List.map_congr_left fun key _ => kind.sql_lexeme key
  · intro l hl
    obtain ⟨key, hm, rfl⟩ := List.mem_map.mp hl
    obtain ⟨_, -, -, hwhole⟩ := exists_of_mem_right hrows (List.mem_eraseDups.mp hm)
    exact hwhole

end ParentBatch

namespace Resolver

variable {C : Type} {r : Resolver C} {args : Arguments} {context : C}

/-- A query asks for the keys it was composed for. -/
theorem withKeys_of_compose {p : ParentBatch} {q : ComposedQuery} {keys : Fields String}
    (hq : r.compose args context (some p) = .ok q) (hk : p.distinctKeys = .ok keys) :
    q.withKeys keys.values = q := by
  rw [compose_withKeys hk] at hq
  obtain ⟨q, -, rfl⟩ := Except.map_eq_ok.mp hq
  simp only [ComposedQuery.withKeys, Option.map_map]
  rfl

variable (r) (args) (context) in
/-- **The list of keys is read back.**  A text is read back from its literal, before anything but a
quote.  The list by which a nested statement asks for the keys of its batch stands between texts
that do not depend on the keys, and is read to the literals of the rows' keys, each once, in the
order of the rows; rows share a literal exactly if they share a key. -/
theorem lexList_keys :
    (∀ (s : String) (rest : List Char), rest.head? ≠ some '\'' →
      ∃ l, Sql.literal (.string s) = .ok l ∧ Sql.lex (l.toList ++ rest) = some (.text s, rest)) ∧
    ∀ (parents : ParentBatch) (q : ComposedQuery) (kind : KeyKind),
      r.compose args context (some parents) = .ok q →
      (∀ row ∈ parents.rows, row.Keyed parents.keyColumn kind) →
      ∃ (join : Join) (keys : Fields String) (literals : List String) (lexemes : List Sql.Lexeme)
          (before after : String),
        q.statement.join = some join ∧ parents.distinctKeys = .ok keys ∧
        q.withKeys keys.values = q ∧
        (∀ keys, (q.withKeys keys).statement.sql =
          before ++ "WHERE " ++ join.qualifiedKey ++ " IN (" ++ Statement.commaSeparated keys ++
            ")" ++ after) ∧
        Sql.lexList (Statement.commaSeparated keys.values ++ ")" ++ after).toList =
          some (lexemes, ')' :: after.toList) ∧
        lexemes.map Sql.Lexeme.sql = keys.values ∧
        parents.rows.mapM parents.literalOf = .ok literals ∧
        keys.values = literals.eraseDups ∧ keys.values.Nodup ∧
        (∀ row ∈ parents.rows, ∃ l ∈ keys.values, parents.literalOf row = .ok l) ∧
        ∀ row ∈ parents.rows, ∀ row' ∈ parents.rows,
          (parents.keyOf row = parents.keyOf row' ↔
            parents.literalOf row = parents.literalOf row') := by
  refine ⟨fun s rest h => ⟨_, rfl, Sql.lex_quote s h⟩, fun parents q kind hq hkeyed => ?_⟩
  obtain ⟨keys, literals, lexemes, hkeys, hliterals, hvalues, hlexemes, hwhole⟩ :=
    ParentBatch.literals_of_keyed hkeyed
  obtain ⟨-, join, hjoin⟩ := join_of_compose hq
  obtain ⟨before, after, hsql⟩ := Statement.lists_sql hjoin
  refine ⟨join, keys, literals, lexemes, before, after, hjoin, hkeys, withKeys_of_compose hq hkeys,
    hsql, ?_, hlexemes, hliterals, hvalues, ?_, fun row hrow => ?_, fun row hrow row' hrow' =>
      ParentBatch.keyOf_eq_iff_literalOf (hkeyed row hrow) (hkeyed row' hrow')⟩
  · have hread := Sql.lexList_commaSeparated hwhole after.toList
    rw [hlexemes] at hread
    rw [String.toList_append, String.toList_append, List.append_assoc]
    exact hread
  · exact hvalues ▸ Fields.nodup_eraseDups literals
  · obtain ⟨l, hl, hown⟩ := Except.mem_of_mapM_eq_ok hliterals hrow
    exact ⟨l, hvalues ▸ List.mem_eraseDups.mpr hl, hown⟩

/-- Authors, whose names look like the text of a statement. -/
def oddAuthors : ParentBatch :=
  ⟨"authors", "name", [[("name", .string "O'Hara")], [("name", .string "', (x) --")],
    [("name", .string "O'Hara")], [("name", .string "")]]⟩

/-- A field that serves the books of authors in pages. -/
def booksByName : Resolver Unit :=
  ⟨"books", some fun _ _ _ _ => .ok "authors.name = books.author", none, [], true,
    .ofTables "memory" [("books", [])] true⟩

theorem lexList_keys_oddAuthors :
    Sql.lex ((Sql.quote "O'Hara").toList ++ ", ''".toList) = some (.text "O'Hara", ", ''".toList) ∧
    ∃ (q : ComposedQuery) (lexemes : List Sql.Lexeme) (after : String),
      booksByName.compose [] () (some oddAuthors) = .ok q ∧
      Sql.lexList (Statement.commaSeparated ["'O''Hara'", "''', (x) --'", "''"] ++ ")" ++
        after).toList = some (lexemes, ')' :: after.toList) ∧
      lexemes.map Sql.Lexeme.sql = ["'O''Hara'", "''', (x) --'", "''"] := by
  obtain ⟨hquote, hlist⟩ := lexList_keys booksByName [] ()
  obtain ⟨q, hq⟩ : ∃ q, booksByName.compose [] () (some oddAuthors) = .ok q := ⟨_, rfl⟩
  have hkeyed : ∀ row ∈ oddAuthors.rows, row.Keyed oddAuthors.keyColumn .strings := by
    simp [oddAuthors, Row.Keyed, KeyKind.Holds, Fields.get?]
  obtain ⟨-, keys, -, lexemes, -, after, -, hkeys, -, -, hread, hlexemes, -⟩ :=
    hlist oddAuthors q .strings hq hkeyed
  obtain rfl : keys = [("O'Hara", "'O''Hara'"), ("', (x) --", "''', (x) --'"), ("", "''")] :=
    (Except.ok.inj hkeys).symm
  obtain ⟨l, hl, hlex⟩ := hquote "O'Hara" ", ''".toList (by decide)
  cases hl
  exact ⟨hlex, q, lexemes, after, hq, hread, hlexemes⟩

end Resolver

end RelaySql
