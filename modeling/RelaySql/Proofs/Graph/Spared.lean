import RelaySql.Proofs.Graph.Paired

/-!
# Loading — the statements that are left when some sources fail

A field whose source fails issues its statement, but nothing is loaded below it.  All other
statements stay as they are.

* `Layer.statement?_failing`: the statement of a response path is the same where sources fail,
  unless it is below one of these.
* `FieldResolver.executions_failing`: the statements of a field are those of the response paths that
  are not below a field whose source fails.
-/

namespace RelaySql

/-! ### Loads in their turn -/

namespace Turn

variable {C : Type} {context : C} {failures : Failures C} {turn turn' : Turn C}

/-- A load, and the one in its turn where sources fail: that of the same nested field, for rows that
are keyed in the same way. -/
structure Alike (failures : Failures C) (turn turn' : Turn C) : Prop where
  resolver : turn'.resolver = turn.resolver.failing failures
  arguments : turn'.arguments = turn.arguments
  parents : ∃ table column rows rows', turn.parents = ⟨table, column, rows⟩ ∧
    turn'.parents = ⟨table, column, rows'⟩ ∧ List.Forall₂ Row.KeyedAlike rows rows'
  nested : turn'.nested = NestedField.allFailing failures turn.nested
  positions : turn'.positions = turn.positions

theorem Alike.statement? (h : Alike failures turn turn') :
    turn'.statement? context = turn.statement? context := by
  obtain ⟨table, column, rows, rows', hparents, hparents', halike⟩ := h.parents
  have hcompose : (turn.query context).toOption = (turn'.query context).toOption := by
    rw [query, query, h.resolver, h.arguments, hparents, hparents', Resolver.compose_failing]
    exact Resolver.toOption_compose halike
  rw [Turn.statement?, Turn.statement?, hcompose, h.resolver, Resolver.name_failing]

/-- Nothing is loaded where the source fails. -/
theorem Alike.layer?_failed (h : Alike failures turn turn') (hrows : turn.parents.rows ≠ [])
    (hsome : (failures turn.resolver).isSome) : turn'.layer? context = none := by
  obtain ⟨table, column, rows, rows', hparents, hparents', halike⟩ := h.parents
  have hrows' : turn'.parents.rows ≠ [] := by
    rw [hparents] at hrows
    rw [hparents']
    rintro (rfl : rows' = [])
    exact hrows (List.forall₂_nil_right_iff.mp halike)
  obtain ⟨e, he⟩ := Resolver.exists_error_of_failing hsome hrows' turn'.trace
  rw [← h.resolver] at he
  exact turn'.layer?_of_error he

/-- The same rows are loaded where the source does not fail. -/
theorem Alike.layer?_kept (h : Alike failures turn turn') (hnone : failures turn.resolver = none)
    (hstateless : turn.resolver.source.Stateless) :
    (turn.layer? context = none ∧ turn'.layer? context = none) ∨
    ∃ below t, turn.layer? context = some below ∧ below.nested = turn.nested ∧
      below.positions = turn.positions ∧
      turn'.layer? context = some (below.failing failures t) := by
  obtain ⟨table, column, rows, rows', hparents, hparents', halike⟩ := h.parents
  have hsame : ((turn'.resolver.resolveNested turn'.arguments context turn'.parents).after
        turn'.trace).1.toOption =
      ((turn.resolver.resolveNested turn.arguments context turn.parents).after
        turn.trace).1.toOption := by
    rw [h.resolver, h.arguments, hparents, hparents']
    exact Resolver.resolveNested_failing hnone hstateless halike turn.trace turn'.trace
  rcases hgroups : (turn.resolver.resolveNested turn.arguments context turn.parents).after
    turn.trace with ⟨e | groups, u⟩ <;> rw [hgroups] at hsame
  · obtain ⟨e', he'⟩ := Except.toOption_eq_none.mp hsame
    exact .inl ⟨turn.layer?_of_error (congrArg Prod.fst hgroups), turn'.layer?_of_error he'⟩
  · rcases hgroups' : (turn'.resolver.resolveNested turn'.arguments context turn'.parents).after
      turn'.trace with ⟨e | groups', u'⟩ <;> rw [hgroups'] at hsame
    · cases hsame
    · obtain rfl := Option.some.inj hsame
      refine .inr ⟨_, u', turn.layer?_of_ok hgroups, rfl, rfl, ?_⟩
      rw [turn'.layer?_of_ok hgroups', h.resolver, h.nested, h.positions, Resolver.table_failing]
      rfl

end Turn

namespace Layer

variable {C : Type} {context : C} {failures : Failures C} {l : Layer C} {t : Trace}

/-- The load of a response key in its turn, where sources fail. -/
theorem turn?_failing (context : C) (failures : Failures C) (l : Layer C) (t : Trace)
    (key : String) : Option.Rel (Turn.Alike failures) (l.turn? context key)
      ((l.failing failures t).turn? context key) := by
  have ho' : (l.failing failures t).occurrences key = l.occurrences key :=
    Load.occurring_allFailing failures l.nested l.positions key
  cases ho : l.occurrences key with
  | nil =>
      simp only [turn?, ho', ho]
      exact .none
  | cons first rest =>
      have hn' : Fields.get? (l.failing failures t).nested first.name =
          (Fields.get? l.nested first.name).map (NestedField.failing failures) :=
        NestedField.get?_allFailing l.nested first.name
      cases hn : Fields.get? l.nested first.name with
      | none =>
          rw [hn] at hn'
          simp only [turn?, ho', ho, hn', hn, Option.map_none]
          exact .none
      | some n =>
          obtain ⟨column, single, resolver, nested⟩ := n
          rw [hn, Option.map_some, NestedField.failing] at hn'
          obtain ⟨batch, batch', u, u', hreached, hreached', -, halike⟩ :=
            l.reached_failing context failures t key
          rw [turn?_of_first (ho'.trans ho) hn' hreached', turn?_of_first ho hn hreached]
          refine .some ⟨rfl, rfl, ⟨l.table, column, batch, batch', rfl, rfl, halike⟩, rfl, ?_⟩
          rw [Resolver.paginated_failing]

/-- The load of a response key in its turn has rows, if the layer has. -/
theorem rows_of_turn? {key : String} {turn : Turn C} (h : l.turn? context key = some turn)
    (hrows : l.batch ≠ []) : turn.parents.rows ≠ [] := by
  obtain ⟨first, rest, column, single, rows, u, -, -, hreached, hturn⟩ := turn?_eq_some h
  obtain ⟨batch, -, v, -, hbatch, -, hlength, -⟩ := l.reached_failing context (fun _ => none) [] key
  obtain rfl := Except.ok.inj (congrArg Prod.fst (hbatch.symm.trans hreached))
  rw [hturn, ← List.length_pos_iff, hlength]
  exact List.length_pos_iff.mpr hrows

/-- The sources of a load and of what is below it are those of the layer. -/
theorem sources_of_turn? (hstateless : l.Stateless) {key : String} {turn : Turn C}
    (h : l.turn? context key = some turn) : turn.resolver.source.Stateless ∧
      ∀ used, NestedField.Uses turn.nested used → used.source.Stateless := by
  obtain ⟨first, rest, column, single, rows, u, -, hn, -, -⟩ := turn?_eq_some h
  have hm := Fields.mem_of_get? hn
  exact ⟨hstateless _ (.own hm), fun used hused => hstateless used (.deeper hm hused)⟩

/-- The same statement is issued for a response key where sources fail. -/
theorem issued?_failing (l : Layer C) (t : Trace) (key : String) :
    (l.failing failures t).issued? context key = l.issued? context key := by
  have hrows : (l.failing failures t).batch = l.batch := rfl
  rw [issued?, issued?, hrows]
  congr 1
  have hturns := l.turn?_failing context failures t key
  generalize l.turn? context key = turn at hturns ⊢
  generalize (l.failing failures t).turn? context key = turn' at hturns ⊢
  cases hturns with
  | none => rfl
  | some halike => exact halike.statement?

/-- Nothing is loaded under a response key that has no load. -/
theorem under?_of_turn?_eq_none {key : String} (h : l.turn? context key = none) :
    l.under? context key = none := by
  rw [under?, h]
  exact ite_self _

/-- The rows that are loaded under a response key where sources fail: none if the source of the load
is one of those, and otherwise the same. -/
theorem under?_failing (hstateless : l.Stateless) (t : Trace) {key : String} {turn : Turn C}
    (hturn : l.turn? context key = some turn) :
    ((failures turn.resolver).isSome → (l.failing failures t).under? context key = none) ∧
    (failures turn.resolver = none →
      (l.under? context key = none ∧ (l.failing failures t).under? context key = none) ∨
      ∃ below t', l.under? context key = some below ∧ below.nested = turn.nested ∧
        below.positions = turn.positions ∧
        (l.failing failures t).under? context key = some (below.failing failures t')) := by
  have hbatch : (l.failing failures t).batch = l.batch := rfl
  by_cases hrows : l.batch = []
  · have hunder : l.under? context key = none := if_pos hrows
    have hunder' : (l.failing failures t).under? context key = none := if_pos hrows
    exact ⟨fun _ => hunder', fun _ => .inl ⟨hunder, hunder'⟩⟩
  obtain ⟨turn', hturn', halike⟩ : ∃ turn', (l.failing failures t).turn? context key = some turn' ∧
      Turn.Alike failures turn turn' := by
    have hturns := l.turn?_failing context failures t key
    rw [hturn] at hturns
    generalize (l.failing failures t).turn? context key = found at hturns
    cases hturns with
    | some halike => exact ⟨_, rfl, halike⟩
  rw [under?, under?, hbatch, if_neg hrows, if_neg hrows, hturn, hturn']
  exact ⟨halike.layer?_failed (rows_of_turn? hturn hrows),
    fun hnone => halike.layer?_kept hnone (sources_of_turn? hstateless hturn).1⟩

end Layer

/-! ### Response paths that are not below a field whose source fails -/

namespace NestedField

variable {C : Type} (failures : Failures C)

/-- The sources of all fields above the last one of a response path do not fail. -/
def spared : (nested : List (String × NestedField C)) → (positions : List SelectedField) →
    List String → Bool
  | _, _, [] => true
  | _, _, [_] => true
  | nested, positions, key :: next :: path =>
    match Load.occurring nested positions key with
    | [] => true
    | first :: rest =>
      match Fields.get? nested first.name with
      | none => true
      | some (mk _ _ resolver below) => (failures resolver).isNone &&
          spared below (rowFields resolver.paginated (first :: rest)) (next :: path)

variable {failures}

/-- The response paths are the same where sources fail. -/
theorem places_allFailing (nested : List (String × NestedField C))
    (positions : List SelectedField) :
    places (allFailing failures nested) positions = places nested positions := by
  induction nested, positions using below_induction with
  | step nested positions ih =>
      rw [places_eq, places_eq, Load.nestedKeys_allFailing]
      refine List.flatMap_congr fun key _ => ?_
      cases ho : Load.occurring nested positions key with
      | nil => simp only [placesAt, Load.occurring_allFailing, ho]
      | cons first rest =>
          cases hn : Fields.get? nested first.name with
          | none =>
              simp only [placesAt, Load.occurring_allFailing, ho, get?_allFailing, hn, Option.map_none]
          | some n =>
              obtain ⟨column, single, resolver, below⟩ := n
              have hbelow := ih key first rest column single resolver below ho hn
              simp only [placesAt, Load.occurring_allFailing, ho, get?_allFailing, hn,
                Option.map_some, failing, Resolver.paginated_failing, hbelow]

end NestedField

namespace Layer

variable {C : Type} {context : C} {failures : Failures C}

/-- The path goes on below the rows of a load if the source of that does not fail. -/
theorem spared_of_turn? {l : Layer C} {key : String} {turn : Turn C}
    (h : l.turn? context key = some turn) (next : String) (path : List String) :
    NestedField.spared failures l.nested l.positions (key :: next :: path) =
      ((failures turn.resolver).isNone &&
        NestedField.spared failures turn.nested turn.positions (next :: path)) := by
  obtain ⟨first, rest, column, single, rows, u, ho, hn, -, hturn⟩ := turn?_eq_some h
  have hoccurring : Load.occurring l.nested l.positions key = first :: rest := ho
  rw [NestedField.spared, hoccurring]
  simp only [hn]
  rw [hturn]

/-- **The statement of a response path** is the same where sources fail, unless it is below one of
these. -/
theorem statement?_failing {l : Layer C} (hstateless : l.Stateless) (t : Trace)
    (path : List String) :
    (l.failing failures t).statement? context path =
      if NestedField.spared failures l.nested l.positions path then l.statement? context path
      else none := by
  match path with
  | [] => rfl
  | [key] => exact l.issued?_failing t key
  | key :: next :: path =>
      rw [statement?_cons (List.cons_ne_nil _ _), statement?_cons (List.cons_ne_nil _ _)]
      cases hturn : l.turn? context key with
      | none =>
          have hturn' : (l.failing failures t).turn? context key = none := by
            have hturns := l.turn?_failing context failures t key
            rw [hturn] at hturns
            generalize (l.failing failures t).turn? context key = found at hturns ⊢
            cases hturns
            rfl
          rw [under?_of_turn?_eq_none hturn, under?_of_turn?_eq_none hturn']
          exact (ite_self _).symm
      | some turn =>
          rw [spared_of_turn? hturn]
          obtain ⟨hfailed, hkept⟩ := under?_failing hstateless t hturn
          cases hf : failures turn.resolver with
          | some failure =>
              rw [hfailed (Option.isSome_of_eq_some hf)]
              rfl
          | none =>
              obtain ⟨hunder, hunder'⟩ | ⟨below, t', hunder, hnested, hpositions, hunder'⟩ :=
                hkept hf
              · rw [hunder, hunder']
                exact (ite_self _).symm
              · have hbelow : below.Stateless := fun used hused =>
                  (sources_of_turn? hstateless hturn).2 used (hnested ▸ hused)
                rw [hunder, hunder', ← hnested, ← hpositions]
                exact statement?_failing hbelow t' (next :: path)

end Layer

/-! ### The statements of a field -/

namespace FieldResolver

variable {C : Type} (r : FieldResolver C) (context : C) (f : SelectedField)

/-- The sources of the field and of all fields above the last one of a response path do not fail. -/
def spared (failures : Failures C) (path : List String) : Bool :=
  (failures r.resolver).isNone &&
    NestedField.spared failures r.nested (rowFields r.resolver.paginated [f]) path

/-- The statements of a field that are not below one whose source fails. -/
def sparedStatements (failures : Failures C) : List (String × Statement) :=
  (r.ownStatement? context f).toList ++
    ((r.places f).filter fun p => r.spared f failures p.1).filterMap fun p =>
      r.statementAt? context f [] p.1

variable {r} {context} {f} {failures : Failures C}

theorem places_failing : (r.failing failures).places f = r.places f := by
  rw [places, places, failing, NestedField.places_allFailing, Resolver.paginated_failing]

theorem ownStatement?_failing :
    (r.failing failures).ownStatement? context f = r.ownStatement? context f := by
  rw [ownStatement?, ownStatement?, query, query, failing, Resolver.compose_failing,
    Resolver.name_failing]

theorem layerAt?_nil_of_error {e : Fault} {t : Trace}
    (h : ((r.resolver.resolve f.arguments context).after t).1 = .error e) :
    r.layerAt? context f t [] = none := by
  rw [layerAt?]
  split
  · next hok =>
      rw [hok] at h
      cases h
  · rfl

theorem layerAt?_nil_of_ok {resolution : Resolution} {t u : Trace}
    (h : (r.resolver.resolve f.arguments context).after t = (.ok resolution, u)) :
    r.layerAt? context f t [] = some (r.layer f resolution u) := by
  rw [layerAt?, h]
  rfl

/-- The statement of a response path is the same where sources fail, unless it is below one of
these. -/
theorem statementAt?_failing (hstateless : r.Stateless) (t t' : Trace) (path : List String) :
    (r.failing failures).statementAt? context f t' path =
      if r.spared f failures path then r.statementAt? context f t path else none := by
  rw [statementAt?, statementAt?, spared]
  cases hf : failures r.resolver with
  | some failure =>
      obtain ⟨e, he⟩ := Resolver.exists_resolve_error_of_failing (Option.isSome_of_eq_some hf) t'
      have hnone : (r.failing failures).layerAt? context f t' [] = none :=
        layerAt?_nil_of_error he
      rw [hnone]
      rfl
  | none =>
      have hsame : (((r.failing failures).resolver.resolve f.arguments context).after t').1 =
          ((r.resolver.resolve f.arguments context).after t).1 :=
        Resolver.resolve_failing hf (hstateless r.resolver (.inl rfl)) t t'
      rcases hresult : (r.resolver.resolve f.arguments context).after t with ⟨e | resolution, u⟩
      · rw [hresult] at hsame
        have hnone : r.layerAt? context f t [] = none :=
          layerAt?_nil_of_error (congrArg Prod.fst hresult)
        have hnone' : (r.failing failures).layerAt? context f t' [] = none :=
          layerAt?_nil_of_error hsame
        rw [hnone, hnone']
        exact (ite_self _).symm
      · rcases hresult' : ((r.failing failures).resolver.resolve f.arguments context).after t' with
          ⟨e' | resolution', u'⟩
        · rw [hresult, hresult'] at hsame
          cases hsame
        · rw [hresult, hresult'] at hsame
          obtain rfl := Except.ok.inj hsame
          have hlayer : r.layerAt? context f t [] = _ := layerAt?_nil_of_ok hresult
          have hlayer' : (r.failing failures).layerAt? context f t' [] = _ :=
            layerAt?_nil_of_ok hresult'
          rw [hlayer, hlayer', layer_failing resolution' u u']
          exact Layer.statement?_failing (hstateless.layer resolution' u) u' path

/-- **The statements of a field** are those of the response paths that are not below a field whose
source fails. -/
theorem executions_failing (hstateless : r.Stateless) (t : Trace) :
    Trace.executions (((r.failing failures).load context f).after t).2 =
      t.executions ++ r.sparedStatements context f failures := by
  rw [executions_eq, ownStatement?_failing, places_failing, sparedStatements, List.filterMap_filter]
  simp only [statementAt?_failing hstateless [] t]

end FieldResolver

end RelaySql
