import RelaySql.Proofs.Graph.Alone
import RelaySql.Proofs.Graph.Covered

/-!
# Loading — what is selected on a single row

A nested field may serve only the first of the rows that are found for it, and then fields are
selected on the row itself.  Looking ahead goes by the resolver alone: of one that serves pages it
looks under `edges` and `node`, where a selection on a row has nothing, so what is selected on the
row is not loaded.

* `Layer.unloaded_iff`: a row lacks the value of a response key exactly when looking ahead at its
  layer saw no occurrence of the key.
* `ServedAt.unloaded_single_iff`: which of the fields selected on a single row are reported as not
  loaded.
* `Schema.authorsOfPosts_differ`: the same request for a resolver that serves a list, or pages.
-/

namespace RelaySql

theorem not_isOrdinary_loadedColumn (key : String) : ¬ IsOrdinary (loadedColumn key) :=
  fun h => h.ne_loaded key rfl

namespace Row

/-- The row has no columns but ordinary ones. -/
def Ordinary (row : Row) : Prop := ∀ c ∈ row, IsOrdinary c.1

instance (row : Row) : Decidable row.Ordinary := List.decidableBAll _ _

theorem Ordinary.get?_eq_none {row : Row} (h : row.Ordinary) {column : String}
    (hc : ¬ IsOrdinary column) : Fields.get? row column = none := by
  cases hv : Fields.get? row column with
  | none => rfl
  | some v => exact absurd (h _ (Fields.mem_of_get? hv)) hc

theorem KeptBut.same {keys : List String} {own row : Row} (h : own.KeptBut keys row) :
    row.Same own :=
  fun _ ho => h _ fun key _ => ho.ne_loaded key

end Row

namespace Source

theorem visible_of_mem_select {totals : Bool} {stored : List Row} {s : Statement} {row : Row}
    (h : row ∈ select totals stored s) : ∃ own ∈ stored, row.visible = own.visible := by
  have hpart : ∀ (nested : Bool) (rows : List Row),
      row ∈ page s (if s.countTotal && totals then counted nested rows else rows) →
      ∃ own ∈ rows, row.visible = own.visible := by
    intro nested rows hrow
    have hrow := mem_of_mem_page hrow
    split at hrow
    · obtain ⟨⟨own, place⟩, hown, rfl⟩ := List.mem_map.mp hrow
      refine ⟨own, List.fst_mem_of_mem_zipIdx hown, ?_⟩
      cases nested <;> simp [Row.visible_insert, isInternal]
    · exact ⟨row, hrow, rfl⟩
  rcases hjoin : s.join with _ | join
  · simp only [select, hjoin] at h
    exact hpart false stored h
  · rw [select_join hjoin, List.mem_flatMap] at h
    obtain ⟨key, -, hrow⟩ := h
    obtain ⟨own, hown, hvisible⟩ := hpart true (childrenOf stored key) hrow
    exact ⟨own, (mem_childrenOf hown).1, hvisible⟩

/-- A source that holds rows in memory gives ordinary ones if these are. -/
theorem ordinary_of_gives_ofTables {name : String} {tables : Fields (List Row)} {totals : Bool}
    (hrows : ∀ rows ∈ tables.values, ∀ own ∈ rows, own.visible.Ordinary) {row : Row}
    (h : (ofTables name tables totals).Gives row) : row.visible.Ordinary := by
  obtain ⟨history, s, answer, hanswer, hrow⟩ := h
  obtain rfl := Except.ok.inj hanswer
  obtain ⟨own, hown, hvisible⟩ := visible_of_mem_select hrow
  rw [hvisible]
  cases hstored : tables.get? s.table with
  | none =>
      rw [hstored] at hown
      cases hown
  | some rows =>
      rw [hstored] at hown
      exact hrows rows (List.mem_map_of_mem (Fields.mem_of_get? hstored)) own hown

end Source

namespace Execution

/-- What is reported of a field that nothing was loaded for. -/
def Unloaded (row : Row) (key : String) : Prop :=
  loadedValue (.object row) key = .error (Text.quoted key ++ " was not loaded with its parent row")

end Execution

namespace Layer

variable {C : Type} {context : C} {l : Layer C}

/-- A row has nothing in the column of a response key exactly when the key does not occur. -/
theorem column_eq_none_iff (hbatch : ∀ own ∈ l.batch, own.Ordinary) {row : Row}
    (hrow : row ∈ l.rows context) (key : String) :
    Fields.get? row (loadedColumn key) = none ↔ l.occurrences key = [] := by
  cases ho : l.occurrences key with
  | nil =>
      -- the column is as the source gave it, which is not at all
      obtain ⟨own, hown, hcolumn⟩ := exists_own_of_occurrences_nil hrow ho
      have hnone := (hbatch own hown).get?_eq_none (not_isOrdinary_loadedColumn key)
      exact iff_of_true (hcolumn.trans hnone) rfl
  | cons first rest =>
      obtain ⟨⟨column, single, resolver, nested⟩, hn⟩ := exists_of_occurrences ho
      obtain ⟨v, hcolumn, -⟩ := column_of_row hrow ho hn
      exact iff_of_false (by simp [hcolumn]) (List.cons_ne_nil _ _)

/-- **A row lacks the value of a response key** exactly when looking ahead saw no occurrence of the
key among all that is selected on the rows that are loaded together. -/
theorem unloaded_iff (hsupplied : l.Supplied Row.Ordinary) {row : Row} (hrow : row ∈ l.rows context)
    (key : String) : Execution.Unloaded row key ↔ l.occurrences key = [] := by
  cases ho : l.occurrences key with
  | nil =>
      have hnone := (column_eq_none_iff hsupplied.batch hrow key).mpr ho
      exact ⟨fun _ => rfl, fun _ => Execution.loadedValue_of_no_column hnone⟩
  | cons first rest =>
      -- what is read from the column says something else
      have hallows : Allows (· ≠ Text.quoted key ++ " was not loaded with its parent row")
          Row.Ordinary := by
        refine ⟨fun message hhead h => ?_, fun key' => Schema.failed_ne_unloaded key' key,
          fun own message hown hm => ?_⟩
        · exact hhead (h ▸ Schema.head?_unloaded key)
        · rw [hown.get?_eq_none (by decide)] at hm
          cases hm
      obtain ⟨⟨column, single, resolver, nested⟩, hn⟩ := exists_of_occurrences ho
      obtain ⟨v, hcolumn, hv⟩ := column_of_row hrow ho hn
      refine iff_of_false (fun h => ?_) (List.cons_ne_nil _ _)
      rw [Execution.Unloaded, Execution.loadedValue_of_column hcolumn] at h
      obtain ⟨fault, rfl⟩ | rfl | ⟨l', r, rfl, -, hgiven, hshows, rfl⟩ := hv
      · rw [Execution.reading_fault] at h
        exact hallows.unquoted _ fault.head?_message (Except.error.inj h)
      · cases h
      · exact Execution.allowed_of_reading_served hallows
          (Layer.supplied_below hsupplied hn hgiven) hshows h rfl

/-- Layers of the same rows have them at the same places. -/
theorem exists_same {l' : Layer C} (hbatch : l.batch = l'.batch) {i : Nat} {row : Row}
    (h : (l.rows context)[i]? = some row) :
    ∃ row', (l'.rows context)[i]? = some row' ∧ row.Same row' := by
  obtain ⟨hi, -⟩ := List.getElem?_eq_some_iff.mp h
  rw [length_rows] at hi
  have hown : l.batch[i]? = some l.batch[i] := List.getElem?_eq_getElem hi
  obtain ⟨stored, hstored, hkept⟩ := l.kept context hown
  obtain rfl := Option.some.inj (hstored.symm.trans h)
  have hown' : l'.batch[i]? = some l.batch[i] := by rw [← hbatch, hown]
  obtain ⟨row', hrow', hkept'⟩ := l'.kept context hown'
  exact ⟨row', hrow', fun column ho => (hkept.same column ho).trans (hkept'.same column ho).symm⟩

/-- The rows that are found for a nested field, with the fields that select on them if its resolver
serves pages of rows, or lists. -/
def found (resolver : Resolver C) (nested : List (String × NestedField C))
    (occurrences : List SelectedField) (groups : Fields Resolution) (u : Trace)
    (paginated : Bool) : Layer C :=
  ⟨nested, rowFields paginated occurrences, resolver.table,
    groups.values.flatMap Resolution.nodes, u⟩

theorem supplied_found {given : Row → Prop} {resolver : Resolver C}
    {nested : List (String × NestedField C)}
    (hgiven : ∀ used, used = resolver ∨ NestedField.Uses nested used →
      ∀ row, used.source.Gives row → given row.visible)
    {arguments : Arguments} {parents : ParentBatch} {groups : Fields Resolution} {u u' : Trace}
    (hgroups : (resolver.resolveNested arguments context parents).after u = (.ok groups, u'))
    (occurrences : List SelectedField) (paginated : Bool) :
    (found resolver nested occurrences groups u' paginated).Supplied given := by
  refine ⟨fun own hown => ?_, fun used hused => hgiven used (.inr hused)⟩
  obtain ⟨value, hvalue, hown⟩ := List.mem_flatMap.mp hown
  obtain ⟨row, hrow, rfl⟩ :=
    (Resolver.shapes_resolveNested (congrArg Prod.fst hgroups) value hvalue).given own hown
  exact hgiven resolver (.inl rfl) row hrow

end Layer

namespace ServedAt

variable {C : Type} {context : C} {r : FieldResolver C} {f : SelectedField} {t : Trace}

/-- **What is selected on a single row** is loaded as it is for a resolver that serves a list of the
same rows, and never reported as not loaded, unless the resolver serves pages.  If it does, a
nested field is reported as not loaded exactly when looking ahead saw nothing under its response
key where the nodes of a page would be. -/
theorem unloaded_single_iff {l : Layer C} {field g first : SelectedField}
    {rest : List SelectedField} {row child : Row} {batch : List Row} {column : String}
    {resolver : Resolver C} {nested : List (String × NestedField C)} {u u' : Trace}
    {groups : Fields Resolution}
    (h : ServedAt context r f t l field row) (hg : g ∈ field.children)
    (hfirst : l.occurrences g.key = first :: rest) (hseen : g ∈ first :: rest)
    (hn : Fields.get? l.nested first.name = some (.mk column true resolver nested))
    (hreached : l.reached context g.key = (.ok batch, u))
    (hgroups : (resolver.resolveNested first.arguments context ⟨l.table, column, batch⟩).after u =
      (.ok groups, u'))
    (hchild : Execution.loadedValue (.object row) g.key = .ok (.object child))
    (hordinary : ∀ used, used = resolver ∨ NestedField.Uses nested used →
      ∀ given, used.source.Gives given → given.visible.Ordinary) :
    let found := Layer.found resolver nested (first :: rest) groups u'
    ServedAt context r f t (found resolver.paginated) g child ∧
    ∃ (i : Nat) (listed : Row), ((found resolver.paginated).rows context)[i]? = some child ∧
      ((found false).rows context)[i]? = some listed ∧ child.Same listed ∧
      ∀ k ∈ g.children, (Fields.get? nested k.name).isSome →
        ¬ Execution.Unloaded listed k.key ∧
        (resolver.paginated = false → child = listed) ∧
        (Execution.Unloaded child k.key ↔ resolver.paginated = true ∧
          Load.occurring nested (rowFields true (first :: rest)) k.key = []) := by
  intro found
  have hserved : ServedAt context r f t (found resolver.paginated) g child :=
    .under h hg hfirst hn hreached hgroups hchild (List.mem_singleton_self child)
      (List.mem_singleton_self g)
  have hsupplied := Layer.supplied_found hordinary hgroups (first :: rest)
  obtain ⟨i, hi⟩ := List.getElem?_of_mem hserved.mem_rows
  have hbatch : (found resolver.paginated).batch = (found false).batch := rfl
  obtain ⟨listed, hlisted, hsame⟩ := Layer.exists_same hbatch hi
  refine ⟨hserved, i, listed, hi, hlisted, hsame, fun k hk hregistered => ?_⟩
  -- a list is looked ahead at directly
  have hlist : Load.occurring nested (first :: rest) k.key ≠ [] :=
    List.ne_nil_of_mem (Load.mem_occurring.mpr
      ⟨List.mem_flatMap.mpr ⟨g, hseen, hk⟩, rfl, hregistered⟩)
  refine ⟨?_, fun hp => ?_, ?_⟩
  · rw [Layer.unloaded_iff (hsupplied false) (List.mem_of_getElem? hlisted)]
    exact hlist
  · rw [hp] at hi
    exact Option.some.inj (hi.symm.trans hlisted)
  · rw [Layer.unloaded_iff (hsupplied resolver.paginated) hserved.mem_rows]
    cases hp : resolver.paginated with
    | false => exact iff_of_false hlist (fun h => nomatch h.1)
    | true => exact (and_iff_right rfl).symm

/-- The author of a post, one of the users. -/
def author : NestedField Unit := .mk "user_id" true (Schema.ofTable "users" false) []

/-- Users in pages, each with one post and its author; the resolver of the post serves a list, or
pages. -/
def usersWithPost (paginated : Bool) : FieldResolver Unit :=
  ⟨Schema.ofTable "users" true,
    [("post", .mk "id" true (Schema.ofTable "posts" paginated) [("author", author)])]⟩

/-- The post of a user with its author. -/
def postByAuthor : SelectedField :=
  ⟨"post", "post", [], [.field "author" "author" [] [.field "id" "id" [] []]]⟩

/-- The nodes of users with their posts. -/
def nodesWithPost : SelectedField :=
  ⟨"node", "node", [], [.field "post" "post" [] postByAuthor.selections]⟩

/-- The users with their posts. -/
def usersByPost : SelectedField :=
  ⟨"users", "users", [],
    [.field "edges" "edges" [] [.field "node" "node" [] nodesWithPost.selections]]⟩

/-- The author of a post whose resolver serves pages is reported as not loaded. -/
theorem unloaded_single_iff_authorInPages : ∃ (l : Layer Unit) (post : Row),
    ServedAt () (usersWithPost true) usersByPost [] l postByAuthor post ∧
      Fields.get? l.nested "author" = some author ∧ Execution.Unloaded post "author" := by
  obtain ⟨l, row, batch, u, groups, u', child, huser, hfirst, hn, hreached, hgroups, hchild⟩ :
      ∃ (l : Layer Unit) (row : Row) (batch : List Row) (u : Trace) (groups : Fields Resolution)
        (u' : Trace) (child : Row),
        ServedAt () (usersWithPost true) usersByPost [] l nodesWithPost row ∧
        l.occurrences "post" = [postByAuthor] ∧
        Fields.get? l.nested "post" =
          some (.mk "id" true (Schema.ofTable "posts" true) [("author", author)]) ∧
        l.reached () "post" = (.ok batch, u) ∧
        ((Schema.ofTable "posts" true).resolveNested [] () ⟨l.table, "id", batch⟩).after u =
          (.ok groups, u') ∧
        Execution.loadedValue (.object row) "post" = .ok (.object child) :=
    ⟨_, _, _, _, _, _, _, .top rfl rfl (List.mem_singleton.mpr rfl)
      (List.mem_of_getElem? (i := 0) rfl), rfl, rfl, rfl, rfl, rfl⟩
  have hordinary : ∀ used, used = Schema.ofTable "posts" true ∨
      NestedField.Uses [("author", author)] used →
      ∀ given, used.source.Gives given → given.visible.Ordinary := by
    have htables : ∀ table paginated given, (Schema.ofTable table paginated).source.Gives given →
        given.visible.Ordinary := by
      intro table paginated given
      exact Source.ordinary_of_gives_ofTables (by decide)
    rintro used (rfl | hused)
    · exact htables "posts" true
    · obtain rfl : used = Schema.ofTable "users" false := by simpa [author] using hused
      exact htables "users" false
  obtain ⟨hserved, i, listed, -, -, -, hselected⟩ := unloaded_single_iff huser
    (List.mem_of_getElem? (i := 0) rfl) hfirst (List.mem_singleton_self _) hn hreached hgroups
    hchild hordinary
  have hauthor := hselected ⟨"author", "author", [], [.field "id" "id" [] []]⟩
    (List.mem_singleton_self _) rfl
  exact ⟨_, child, hserved, rfl, hauthor.2.2.mpr ⟨rfl, rfl⟩⟩

end ServedAt

namespace Schema

/-- The schema of users, each with a post whose resolver serves a list or pages. -/
def ofUsersWithPost (paginated : Bool) : Schema Unit :=
  (((Graph.registerConnection {} "User").register
      ⟨"Query", [⟨"users", .nonNull (.named "UserConnection"),
        .root (ServedAt.usersWithPost paginated), []⟩]⟩).register
      ⟨"User", [Graph.columnField "id" (.named "Int"),
        ⟨"post", .named "Post", .nested, []⟩]⟩).register
    ⟨"Post", [Graph.columnField "id" (.named "Int"), ⟨"author", .named "User", .nested, []⟩]⟩

/-- The response to a request for the authors of the users' posts. -/
def authorsOfPosts (paginated : Bool) : Response :=
  (ofUsersWithPost paginated).execute (some ())
    [.field "users" "users" [] ServedAt.usersByPost.selections]

/-- The author of a user's post is served when the resolver of the post serves a list, and reported
as not loaded when the same resolver serves pages. -/
theorem authorsOfPosts_differ :
    (authorsOfPosts false).reports = [] ∧
    (authorsOfPosts true).reports.map Report.message =
      ["\"author\" was not loaded with its parent row"] ∧
    (authorsOfPosts true).data ≠ (authorsOfPosts false).data := by
  decide +kernel

end Schema

end RelaySql
