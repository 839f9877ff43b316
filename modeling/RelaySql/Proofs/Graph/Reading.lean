import RelaySql.Proofs.Graph.SingleRows

/-!
# Loading — how a nested field reads what its load came to

A load that fails leaves its fault in the rows as an object with a member of its own, and a nested
field knows the fault by that member.  A single row is served as an object too.  It has the member
when a field was loaded for the row itself under the response key `error`, and then it is taken for
a fault.

* `Layer.reads_iff`: a nested field reads what its load came to, the value for the row or the
  message of the fault, exactly when it does not serve a row that has such a field.
* `ServedAt.not_reads_authorUnderError`: the post of a user is lost when its author is asked for
  under the response key `error`.
-/

namespace RelaySql

namespace Execution

theorem reading_of_no_fault {v : Json} (h : v.member? faultMember = none) (key : String) :
    reading key v = .ok v := by
  rw [reading, h]

theorem reading_of_no_text {v fault : Json} (h : v.member? faultMember = some fault)
    (hfault : ∀ message, fault ≠ .string message) (key : String) :
    reading key v = .error (Text.quoted key ++ " failed to load") := by
  rw [reading, h]
  cases fault with
  | string message => exact absurd rfl (hfault message)
  | null | boolean _ | number _ | array _ | object _ => rfl

end Execution

/-- Among the values of fields only rows have a member that marks a fault. -/
theorem exists_row_of_fault {single : Bool} {r : Resolution} {fault : Json}
    (h : (servedJson single r).member? faultMember = some fault) :
    single = true ∧ ∃ row ∈ r.nodes, servedJson single r = .object row := by
  cases single with
  | true =>
      obtain hnull | hrow := servedJson_single r
      · rw [hnull] at h
        cases h
      · exact ⟨rfl, hrow⟩
  | false =>
      cases r with
      | rows list => cases h
      | connection page => cases h

namespace Layer

variable {C : Type} {context : C} {l : Layer C}

/-- The row at a place reads under a response key what the key's load came to: its value for that
place, or the message of its fault. -/
structure Reads (outcome : Except Fault (List Json)) (i : Nat) (row : Row) (key : String) :
    Prop where
  value : ∀ values, outcome = .ok values →
    ∃ v, values[i]? = some v ∧ Execution.loadedValue (.object row) key = .ok v
  fault : ∀ fault : Fault, outcome = .error fault →
    Execution.loadedValue (.object row) key = .error fault.message

/-- The load came to a row for the place. -/
def CameToRow (outcome : Except Fault (List Json)) (i : Nat) : Prop :=
  ∃ values own, outcome = .ok values ∧ values[i]? = some (.object own)

/-- A row reads the value that its load came to, if it is read as it is. -/
theorem reads_of_value {outcome : Except Fault (List Json)} {values : List Json} {i : Nat}
    {v : Json} {row : Row} {key : String} (houtcome : outcome = .ok values)
    (hv : values[i]? = some v)
    (hread : Execution.loadedValue (.object row) key = Execution.reading key v) :
    Reads outcome i row key ↔ Execution.reading key v = .ok v := by
  subst houtcome
  constructor
  · intro h
    obtain ⟨v', hv', hloaded⟩ := h.value values rfl
    obtain rfl := Option.some.inj (hv.symm.trans hv')
    exact hread.symm.trans hloaded
  · intro h
    refine ⟨fun values' hvalues => ?_, fun fault hfault => nomatch hfault⟩
    obtain rfl := Except.ok.inj hvalues
    exact ⟨v, hv, hread.trans h⟩

/-- A value that shows rows of a layer is read as it is, unless it is a row and something is loaded
for the rows of the layer under `error`. -/
theorem reading_served {paginated : Bool} {r : Resolution}
    (hbatch : ∀ own ∈ l.batch, own.Ordinary) (hshows : l.Shows context paginated r)
    (single : Bool) (key : String) :
    let taken := single = true ∧ (∃ own, servedJson single r = .object own) ∧
      l.occurrences "error" ≠ []
    (¬ taken → Execution.reading key (servedJson single r) = .ok (servedJson single r)) ∧
      (taken → Execution.reading key (servedJson single r) =
        .error (Text.quoted key ++ " failed to load")) := by
  intro taken
  constructor
  · intro hnot
    cases hfault : (servedJson single r).member? faultMember with
    | none => exact Execution.reading_of_no_fault hfault key
    | some fault =>
        obtain ⟨hsingle, row, hrow, hobject⟩ := exists_row_of_fault hfault
        rw [hobject] at hfault
        refine absurd ⟨hsingle, ⟨row, hobject⟩, fun ho => ?_⟩ hnot
        have hnone := (column_eq_none_iff hbatch (hshows.2 row hrow) "error").mpr ho
        exact nomatch hnone.symm.trans hfault
  · rintro ⟨rfl, ⟨own, hobject⟩, ho⟩
    obtain hnull | ⟨row, hfirst, hserved⟩ := servedJson_single r
    · exact nomatch hnull.symm.trans hobject
    have hrow := hshows.2 row hfirst
    obtain ⟨fault, hfault⟩ := Option.ne_none_iff_exists'.mp
      (mt (column_eq_none_iff hbatch hrow "error").mp ho)
    rw [hserved]
    refine Execution.reading_of_no_text (v := .object row) hfault (fun message htext => ?_) key
    -- a text would be the source's own
    obtain ⟨given, hgiven, hown⟩ := given_of_text hbatch hrow (htext ▸ hfault)
    rw [hgiven.get?_eq_none (by decide)] at hown
    cases hown

/-- **A nested field reads what its load came to**, the value for the row or the message of the
fault, exactly when it does not serve a single row for which something is loaded under the response
key `error`.  Such a row is lost, whatever was loaded for it: the field reads that it failed. -/
theorem reads_iff {key column : String} {first : SelectedField} {rest : List SelectedField}
    {single : Bool} {resolver : Resolver C} {nested : List (String × NestedField C)}
    (ho : l.occurrences key = first :: rest)
    (hn : Fields.get? l.nested first.name = some (.mk column single resolver nested))
    (hordinary : ∀ given, resolver.source.Gives given → given.visible.Ordinary)
    {i : Nat} {row : Row} (hrow : (l.rows context)[i]? = some row) :
    let outcome := l.outcome context
      ((NestedField.mk column single resolver nested).loadWith key first.arguments (first :: rest))
    let taken := single = true ∧ CameToRow outcome i ∧
      Load.occurring nested (rowFields resolver.paginated (first :: rest)) "error" ≠ []
    (Reads outcome i row key ↔ ¬ taken) ∧
      (taken → Execution.loadedValue (.object row) key =
        .error (Text.quoted key ++ " failed to load")) := by
  intro outcome taken
  obtain ⟨v, hyield, hcolumn⟩ := column_of_first ho hn hrow
  have hread := Execution.loadedValue_of_column hcolumn
  obtain ⟨values, houtcome, hv⟩ | ⟨fault, houtcome, rfl⟩ := of_yields hyield
  · have hcame : CameToRow outcome i ↔ ∃ own, v = .object own := by
      constructor
      · rintro ⟨values', own, houtcome', hown⟩
        obtain rfl := Except.ok.inj (houtcome.symm.trans houtcome')
        exact ⟨own, Option.some.inj (hv.symm.trans hown)⟩
      · rintro ⟨own, rfl⟩
        exact ⟨values, own, houtcome, hv⟩
    rw [reads_of_value houtcome hv hread, hread]
    obtain rfl | ⟨l', r, rfl, hpositions, hgiven, hshows, rfl⟩ :=
      of_outcome houtcome (List.mem_of_getElem? hv)
    · have hnot : ¬ taken := fun h => by
        obtain ⟨own, hown⟩ := hcame.mp h.2.1
        cases hown
      exact ⟨iff_of_true rfl hnot, fun h => absurd h hnot⟩
    · have hbatch : ∀ own ∈ l'.batch, own.Ordinary := by
        intro own hown
        obtain ⟨given, hsource, rfl⟩ := hgiven own hown
        exact hordinary given hsource
      obtain ⟨hkept, hlost⟩ := reading_served hbatch hshows single key
      rw [Layer.occurrences, hpositions, ← hcame] at hkept hlost
      refine ⟨⟨fun hok htaken => ?_, hkept⟩, hlost⟩
      rw [hlost htaken] at hok
      cases hok
  · have hnot : ¬ taken := by
      rintro ⟨-, ⟨values, own, hvalues, -⟩, -⟩
      exact nomatch houtcome.symm.trans hvalues
    refine ⟨iff_of_true ⟨fun values hvalues => ?_, fun fault' hfault => ?_⟩ hnot,
      fun h => absurd h hnot⟩
    · exact nomatch houtcome.symm.trans hvalues
    · obtain rfl := Except.error.inj (houtcome.symm.trans hfault)
      exact hread.trans (Execution.reading_fault key _)

/-- The post of a user with its author under a response key. -/
def postWithAuthor (key : String) : SelectedField :=
  ⟨"post", "post", [], [.field key "author" [] [.field "id" "id" [] []]]⟩

/-- The nodes of users with their posts. -/
def nodesWithAuthor (key : String) : SelectedField :=
  ⟨"node", "node", [], [.field "post" "post" [] (postWithAuthor key).selections]⟩

/-- The users with their posts and the authors of these. -/
def usersWithAuthor (key : String) : SelectedField :=
  ⟨"users", "users", [],
    [.field "edges" "edges" [] [.field "node" "node" [] (nodesWithAuthor key).selections]]⟩

/-- A user reads its post when the author is asked for under another response key. -/
theorem reads_iff_authorUnderWriter : ∃ (l : Layer Unit) (row : Row) (post : NestedField Unit),
    ServedAt () (ServedAt.usersWithPost false) (usersWithAuthor "writer") [] l
      (nodesWithAuthor "writer") row ∧
    Fields.get? l.nested "post" = some post ∧
    Reads (l.outcome () (post.loadWith "post" [] [postWithAuthor "writer"])) 0 row "post" := by
  obtain ⟨l, row, huser, hfirst, hn, hrow⟩ : ∃ (l : Layer Unit) (row : Row),
      ServedAt () (ServedAt.usersWithPost false) (usersWithAuthor "writer") [] l
        (nodesWithAuthor "writer") row ∧
      l.occurrences "post" = [postWithAuthor "writer"] ∧
      Fields.get? l.nested "post" =
        some (.mk "id" true (Schema.ofTable "posts" false) [("author", ServedAt.author)]) ∧
      (l.rows ())[0]? = some row :=
    ⟨_, _, .top rfl rfl (List.mem_of_getElem? (i := 0) rfl) (List.mem_singleton_self _), rfl, rfl,
      rfl⟩
  refine ⟨l, row, _, huser, hn, (reads_iff hfirst hn (fun given hgiven => ?_) hrow).1.mpr ?_⟩
  · exact Source.ordinary_of_gives_ofTables (by decide) hgiven
  · exact fun htaken => htaken.2.2 rfl

end Layer

namespace ServedAt

open Layer in
/-- The post of a user is loaded, and read as failed when its author is asked for under `error`. -/
theorem not_reads_authorUnderError :
    ¬ ∀ (l : Layer Unit) (field : SelectedField) (row : Row) (i : Nat),
      ServedAt () (usersWithPost false) (usersWithAuthor "error") [] l field row →
      l.Supplied Row.Ordinary → (l.rows ())[i]? = some row →
      ∀ (key : String) (first : SelectedField) (rest : List SelectedField) (n : NestedField Unit),
        l.occurrences key = first :: rest → Fields.get? l.nested first.name = some n →
        Reads (l.outcome () (n.loadWith key first.arguments (first :: rest))) i row key := by
  intro hclaim
  have htable : ∀ table given, (Schema.ofTable table false).source.Gives given →
      given.visible.Ordinary :=
    fun table given => Source.ordinary_of_gives_ofTables (by decide)
  have hordinary : ∀ used, NestedField.Uses (usersWithPost false).nested used →
      ∀ given, used.source.Gives given → given.visible.Ordinary := by
    intro used hused
    obtain rfl | rfl : used = Schema.ofTable "posts" false ∨ used = Schema.ofTable "users" false := by
      simpa [usersWithPost, author] using hused
    · exact htable "posts"
    · exact htable "users"
  obtain ⟨l, row, hserved, hsupplied, hrow, hfirst, hn, ⟨values, hvalues⟩, hfailed⟩ :
      ∃ (l : Layer Unit) (row : Row),
        ServedAt () (usersWithPost false) (usersWithAuthor "error") [] l (nodesWithAuthor "error")
          row ∧ l.Supplied Row.Ordinary ∧ (l.rows ())[0]? = some row ∧
        l.occurrences "post" = [postWithAuthor "error"] ∧
        Fields.get? l.nested "post" =
          some (.mk "id" true (Schema.ofTable "posts" false) [("author", author)]) ∧
        (∃ values, l.outcome () ((NestedField.mk "id" true (Schema.ofTable "posts" false)
          [("author", author)]).loadWith "post" [] [postWithAuthor "error"]) = .ok values) ∧
        (Execution.loadedValue (.object row) "post").isOk = false :=
    ⟨_, _, .top rfl rfl (List.mem_of_getElem? (i := 0) rfl) (List.mem_singleton_self _),
      ⟨by decide, hordinary⟩, rfl, rfl, rfl, ⟨_, rfl⟩, rfl⟩
  obtain ⟨v, -, hread⟩ :=
    (hclaim l _ row 0 hserved hsupplied hrow "post" _ [] _ hfirst hn).value values hvalues
  rw [hread] at hfailed
  cases hfailed

end ServedAt

end RelaySql
