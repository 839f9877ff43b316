import RelaySql.Proofs.Graph.Layers

/-!
# Loading — which occurrence a row is served from

A response may show a row at several places, under aliases of `edges` and `node`, and at each place
a nested field may be selected under the same response key.  All these occurrences are loaded once,
as the field and with the arguments of the first of them.

* `Layer.serves_first`: a row is served what the load of the key's first occurrence yields for it.
* `ServedAt.serves_own_iff`: an occurrence is served what its own field and arguments yield, in every
  tree of resolvers, exactly when the first occurrence of its key has the same name and arguments.
* `ServedAt.not_serves_own_secondAlias`: two aliases of `edges` that ask for different pages of a
  nested field are both served the first.
-/

namespace RelaySql

namespace Layer

variable {C : Type} (context : C) (l : Layer C)

/-- The load of an occurrence, of its own field with its own arguments. -/
def own (g : SelectedField) (n : NestedField C) : Load C :=
  n.loadWith g.key g.arguments (l.occurrences g.key)

/-- The row is served under a response key what the load yields for it. -/
def Serves (row : Row) (load : Load C) : Prop :=
  ∃ (i : Nat) (v : Json), (l.rows context)[i]? = some row ∧
    (l.yields context load)[i]? = some v ∧
    Execution.loadedValue (.object row) load.key = Execution.reading load.key v

/-- The first occurrence of a response key among all that is selected on the rows. -/
def first (g : SelectedField) : Option SelectedField :=
  (l.positions.flatMap SelectedField.children).find? fun h => h.key = g.key

/-- The first occurrence of the key of `g` is of the same field with the same arguments. -/
def FirstAgrees (g : SelectedField) : Prop :=
  ∃ h, l.first g = some h ∧ h.name = g.name ∧ h.arguments = g.arguments

variable {context} {l}

/-- **A row is served what the load of the key's first occurrence yields for it.** -/
theorem serves_first {key : String} {first : SelectedField} {rest : List SelectedField}
    (ho : l.occurrences key = first :: rest) {n : NestedField C}
    (hn : Fields.get? l.nested first.name = some n) {row : Row} (hrow : row ∈ l.rows context) :
    l.Serves context row (n.loadWith key first.arguments (first :: rest)) := by
  obtain ⟨i, hi⟩ := List.getElem?_of_mem hrow
  obtain ⟨v, hv, hcolumn⟩ := column_of_first ho hn hi
  refine ⟨i, v, hi, hv, ?_⟩
  rw [NestedField.key_loadWith]
  exact Execution.loadedValue_of_column hcolumn

/-- The first occurrence of a key comes first among those that are registered, if it is. -/
theorem occurrences_of_first {g h : SelectedField} (hfirst : l.first g = some h) {n : NestedField C}
    (hn : Fields.get? l.nested h.name = some n) : ∃ rest, l.occurrences g.key = h :: rest := by
  obtain ⟨hkey, before, after, hsplit, hbefore⟩ := List.find?_eq_some_iff_append.mp hfirst
  refine ⟨Load.occurrences (NestedField.planners l.nested) after g.key, ?_⟩
  have hnone : Load.occurrences (NestedField.planners l.nested) before g.key = [] := by
    refine List.filter_eq_nil_iff.mpr fun f hf => ?_
    have hne := hbefore f hf
    simp only [Bool.not_eq_true', decide_eq_false_iff_not] at hne
    simp [hne]
  simp only [occurrences, Load.occurring, hsplit]
  rw [Load.occurrences, List.filter_append, List.filter_cons_of_pos]
  · simp only [Load.occurrences] at hnone
    rw [hnone]
    rfl
  · simp [of_decide_eq_true hkey, NestedField.get?_planners, hn]

/-- An occurrence that agrees with the first of its key is served its own value. -/
theorem serves_own {g : SelectedField} (hagrees : l.FirstAgrees g) {n : NestedField C}
    (hn : Fields.get? l.nested g.name = some n) {row : Row} (hrow : row ∈ l.rows context) :
    l.Serves context row (l.own g n) := by
  obtain ⟨h, hfirst, hname, harguments⟩ := hagrees
  rw [← hname] at hn
  obtain ⟨rest, ho⟩ := occurrences_of_first hfirst hn
  rw [own, ← harguments, ho]
  exact serves_first ho hn hrow

end Layer

/-! ### Fields that tell how they are resolved -/

section Telling

variable {C : Type} (g : SelectedField)

open Classical in
/-- The fault of a field that is resolved as `g` is selected, or differently. -/
noncomputable def told (name : String) (arguments : Arguments) : Fault :=
  .composition (.stated (if name = g.name ∧ arguments = g.arguments then "own" else "other"))

/-- A field that always fails, and tells how it was resolved. -/
noncomputable def telling (name : String) : NestedField C :=
  .mk "" false ⟨"", some fun _ _ arguments _ => .error (told g name arguments), none, [], false,
    .failing "" (.rowDecode "")⟩ []

theorem told_own : told g g.name g.arguments = .composition (.stated "own") := by
  simp [told]

theorem told_other {name : String} {arguments : Arguments}
    (h : ¬ (name = g.name ∧ arguments = g.arguments)) :
    told g name arguments = .composition (.stated "other") := by
  simp only [told, if_neg h]

variable {g}

/-- What a telling field yields. -/
theorem mem_yields_telling {context : C} {l : Layer C} {name key : String} {arguments : Arguments}
    {fields : List SelectedField} {v : Json}
    (h : v ∈ l.yields context ((telling g name).loadWith key arguments fields)) :
    v = (told g name arguments).toJson := by
  simp only [Layer.yields] at h
  split at h
  · obtain ⟨row, -, rfl⟩ := List.mem_map.mp h
    rfl
  · cases h

end Telling

namespace Layer

variable {C : Type} (context : C) (positions : List SelectedField) (g : SelectedField)

/-- One row without columns, under fields that tell how they are resolved. -/
noncomputable def ofTelling (C : Type) (names : List String) : Layer C :=
  ⟨Fields.tabulate names (telling g), positions, "", [[]], []⟩

variable {positions} {g}

theorem not_serves_own_of_reads {l : Layer C} {row : Row} {message : String}
    (hread : Execution.loadedValue (.object row) g.key = .error message)
    (hne : message ≠ (Fault.composition (.stated "own")).message) :
    ¬ l.Serves context row (l.own g (telling g g.name)) := by
  rintro ⟨i, v, -, hv, hserved⟩
  rw [mem_yields_telling (List.mem_of_getElem? hv), told_own, own, NestedField.key_loadWith, hread,
    Execution.reading_fault] at hserved
  exact hne (Except.error.inj hserved)

/-- Where the first occurrence of a key is of another field, or has other arguments, some tree of
resolvers serves an occurrence what is not its own. -/
theorem exists_not_serves_own {l : Layer C} (h : ¬ l.FirstAgrees g) :
    ∃ (l' : Layer C) (n : NestedField C) (row : Row), l'.positions = l.positions ∧
      Fields.get? l'.nested g.name = some n ∧ row ∈ l'.rows context ∧
      ¬ l'.Serves context row (l'.own g n) := by
  rcases hfirst : l.first g with _ | first
  -- nothing is loaded for the key, so nothing is read
  · let l' : Layer C := ofTelling l.positions g C [g.name]
    have hn : Fields.get? l'.nested g.name = some (telling g g.name) := by
      simp [l', ofTelling, Fields.get?_tabulate]
    obtain ⟨row, hrow, hkept⟩ := l'.kept context (show l'.batch[0]? = some [] from rfl)
    refine ⟨l', telling g g.name, row, rfl, hn, List.mem_of_getElem? hrow, ?_⟩
    have hcolumn : Fields.get? row (loadedColumn g.key) = none := by
      refine hkept _ fun key hm he => ?_
      obtain ⟨load, hload, rfl⟩ := List.mem_map.mp hm
      refine Load.ofFields_of_occurring_nil ?_ load hload (loadedColumn_injective he)
      exact List.filter_eq_nil_iff.mpr fun f hf hk =>
        List.find?_eq_none.mp hfirst f hf (by simpa using And.left (of_decide_eq_true hk))
    refine not_serves_own_of_reads context (Execution.loadedValue_of_no_column hcolumn) ?_
    -- a quoted key and the message of a fault differ in their first characters
    intro he
    have hhead := congrArg (fun m => m.toList.head?) he
    rw [String.toList_append, Text.toList_quoted, List.cons_append, List.cons_append,
      List.head?_cons, show (Fault.message _).toList.head? = some 'C' by decide] at hhead
    exact absurd hhead (by decide)
  -- the first occurrence is resolved, and it tells that it is another
  · have hother : ¬ (first.name = g.name ∧ first.arguments = g.arguments) :=
      fun hagrees => h ⟨first, hfirst, hagrees⟩
    let l' : Layer C := ofTelling l.positions g C [first.name, g.name]
    have hn : Fields.get? l'.nested g.name = some (telling g g.name) := by
      simp [l', ofTelling, Fields.get?_tabulate]
    have hn' : Fields.get? l'.nested first.name = some (telling g first.name) := by
      simp [l', ofTelling, Fields.get?_tabulate]
    obtain ⟨rest, ho⟩ := occurrences_of_first (l := l') hfirst hn'
    obtain ⟨row, hrow, -⟩ := l'.kept context (show l'.batch[0]? = some [] from rfl)
    have hm := List.mem_of_getElem? hrow
    refine ⟨l', telling g g.name, row, rfl, hn, hm, ?_⟩
    obtain ⟨i, v, -, hv, hserved⟩ := serves_first ho hn' hm
    rw [mem_yields_telling (List.mem_of_getElem? hv), told_other g hother, NestedField.key_loadWith,
      Execution.reading_fault] at hserved
    exact not_serves_own_of_reads context hserved (by decide)

end Layer

/-! ### Rows of a response -/

namespace ServedAt

variable {C : Type}

/-- **When every occurrence is served its own value.**  A row of a response is served, under each
response key, what the load of the key's first occurrence on its layer yields.  In every tree of
resolvers that is what the occurrence's own field and arguments yield, exactly when the first
occurrence has the same name and the same arguments. -/
theorem serves_own_iff {context : C} {r : FieldResolver C} {f : SelectedField} {t : Trace}
    {l : Layer C} {field : SelectedField} {row : Row} (h : ServedAt context r f t l field row)
    (g : SelectedField) :
    row ∈ l.rows context ∧
    (∀ first rest n, l.occurrences g.key = first :: rest →
      Fields.get? l.nested first.name = some n →
      l.Serves context row (n.loadWith g.key first.arguments (first :: rest))) ∧
    (l.FirstAgrees g ↔ ∀ l' : Layer C, l'.positions = l.positions → ∀ n,
      Fields.get? l'.nested g.name = some n → ∀ row' ∈ l'.rows context,
        l'.Serves context row' (l'.own g n)) := by
  refine ⟨h.mem_rows, fun _ _ _ ho hn => Layer.serves_first ho hn h.mem_rows, ?_, ?_⟩
  · intro hagrees l' hl n hn row' hrow
    refine Layer.serves_own ?_ hn hrow
    rwa [Layer.FirstAgrees, Layer.first, hl]
  · intro hall
    by_contra hagrees
    obtain ⟨l', n, row', hl, hn, hrow, hother⟩ := Layer.exists_not_serves_own context hagrees
    exact hother (hall l' hl n hn row' hrow)

/-- A user with two posts. -/
def usersAndPosts : Fields (List Row) :=
  [("users", [[("id", .ofNat 1)]]),
    ("posts", [[(parentKeyColumn, .ofNat 1), ("id", .ofNat 10)],
      [(parentKeyColumn, .ofNat 1), ("id", .ofNat 11)]])]

/-- A field of these rows, in pages. -/
def ofUsersAndPosts (table : String) : Resolver Unit :=
  ⟨table, some fun _ _ _ _ => .ok "users.id = posts.user_id", none, [⟨"id", .ascending⟩], true,
    .ofTables "memory" usersAndPosts true⟩

/-- The posts of a user. -/
def posts : NestedField Unit := .mk "id" false (ofUsersAndPosts "posts") []

/-- The users with their posts. -/
def users : FieldResolver Unit := ⟨ofUsersAndPosts "users", [("posts", posts)]⟩

/-- The first posts of a user. -/
def firstPosts (n : Int) : SelectedField :=
  ⟨"posts", "posts", [("first", .number (.whole n))],
    [.field "edges" "edges" [] [.field "node" "node" [] [.field "id" "id" [] []]]]⟩

/-- The nodes of users with their first posts. -/
def nodesWith (n : Int) : SelectedField :=
  ⟨"node", "node", [], [.field "posts" "posts" (firstPosts n).arguments (firstPosts n).selections]⟩

/-- The users twice: under `a` with one post of each, under `b` with two. -/
def aliasedUsers : SelectedField :=
  ⟨"users", "users", [],
    [.field "a" "edges" [] [.field "node" "node" [] (nodesWith 1).selections],
      .field "b" "edges" [] [.field "node" "node" [] (nodesWith 2).selections]]⟩

/-- The first alias is served its own page. -/
theorem serves_own_iff_firstAlias : ∃ (l : Layer Unit) (row : Row),
    ServedAt () users aliasedUsers [] l (nodesWith 1) row ∧ l.FirstAgrees (firstPosts 1) ∧
      l.Serves () row (l.own (firstPosts 1) posts) := by
  have hserved : ∃ (l : Layer Unit) (row : Row),
      ServedAt () users aliasedUsers [] l (nodesWith 1) row ∧ l.FirstAgrees (firstPosts 1) ∧
        Fields.get? l.nested (firstPosts 1).name = some posts :=
    ⟨_, _, .top rfl rfl (List.mem_singleton.mpr rfl) (List.mem_of_getElem? (i := 0) rfl),
      ⟨firstPosts 1, rfl, rfl, rfl⟩, rfl⟩
  obtain ⟨l, row, hserved, hagrees, hn⟩ := hserved
  obtain ⟨hrow, -, hown⟩ := serves_own_iff hserved (firstPosts 1)
  exact ⟨l, row, hserved, hagrees, hown.mp hagrees l rfl posts hn row hrow⟩

/-- How many edges a page has. -/
def edgeCount (page : Json) : Option Nat := (page.member? "edges").map (·.items.length)

/-- The second alias asks for two posts and is served the page of the first, which has one. -/
theorem not_serves_own_secondAlias :
    ¬ ∀ (l : Layer Unit) (field : SelectedField) (row : Row),
      ServedAt () users aliasedUsers [] l field row → ∀ g ∈ field.children, ∀ n,
        Fields.get? l.nested g.name = some n → l.Serves () row (l.own g n) := by
  intro hclaim
  obtain ⟨i, v, -, hv, hserved⟩ := hclaim _ (nodesWith 2) _
    (.top rfl rfl (List.mem_singleton.mpr rfl) (List.mem_of_getElem? (i := 1) rfl))
    (firstPosts 2) (List.mem_of_getElem? (i := 0) rfl) posts rfl
  -- what its own arguments yield, a page of two edges
  generalize hl : Layer.yields _ _ _ = values at hv
  obtain ⟨own, rfl, hown⟩ : ∃ own, values = [own] ∧ edgeCount own = some 2 :=
    ⟨_, hl.symm.trans rfl, by decide +kernel⟩
  -- what it is served, a page of one
  generalize hr : Execution.loadedValue _ _ = read at hserved
  obtain ⟨page, rfl, hpage⟩ : ∃ page, read = .ok page ∧ edgeCount page = some 1 :=
    ⟨_, hr.symm.trans rfl, by decide +kernel⟩
  have hsame : own = page := by
    rw [← List.mem_singleton.mp (List.mem_of_getElem? hv)]
    exact Execution.reading_eq_ok hserved.symm
  rw [← hsame, hown] at hpage
  exact absurd hpage (by decide)

end ServedAt

end RelaySql
