import RelaySql.Proofs.Page.Slice
import RelaySql.Source

/-!
# Statements — the rows that are kept

The numbers in the text of a statement are row counts of the database, so larger ones are written as
the largest of these, and a sum of two is stopped before that.  No set of rows that the database can
count has a row that far out, so the rows that are kept are those that the statement asks for.

* `Source.page_clamped`: skipping and taking clamped numbers of rows.
* `OffsetBounds.contains_clamped`: the places that clamped bounds keep.
* `Statement.clauses_keep`: what the text of a statement says about the rows to keep.
-/

namespace RelaySql

/-! ### Row counts -/

theorem rowCount_le (n : Nat) : rowCount n ≤ maxInt64 := Nat.min_le_right _ _

theorem rowCount_le_iff {n place : Nat} (h : place < maxInt64) :
    rowCount n ≤ place ↔ n ≤ place := by
  simp only [rowCount]
  omega

theorem lt_rowCount_iff {n place : Nat} (h : place < maxInt64) :
    place < rowCount n ↔ place < n := by
  simp only [rowCount]
  omega

/-- A sum that is stopped is larger than any row count. -/
theorem rowCount_addUpTo64 (a c : Nat) : rowCount (addUpTo64 a c) = rowCount (a + c) := by
  simp only [rowCount, addUpTo64, maxInt64, maxUInt64]
  omega

namespace Source

variable {α : Type}

/-- **Clamped numbers skip and take the same rows.** -/
theorem page_clamped (s : Statement) {rows : List α} (h : rows.length ≤ maxInt64) :
    page { s with limit := s.limit.map rowCount, offset := s.offset.map rowCount } rows =
      page s rows := by
  have hskip : rows.drop ((s.offset.map rowCount).getD 0) = rows.drop (s.offset.getD 0) := by
    rcases s.offset with _ | offset
    · rfl
    · rcases Nat.le_total offset maxInt64 with hle | hle
      · simp only [Option.map_some, Option.getD_some, rowCount, Nat.min_eq_left hle]
      · -- nothing is left in either case
        simp only [Option.map_some, Option.getD_some, rowCount, Nat.min_eq_right hle]
        rw [List.drop_of_length_le h, List.drop_of_length_le (Nat.le_trans h hle)]
  simp only [page, hskip]
  rcases s.limit with _ | limit
  · rfl
  · have hlength : (rows.drop (s.offset.getD 0)).length ≤ maxInt64 := by
      rw [List.length_drop]
      omega
    rcases Nat.le_total limit maxInt64 with hle | hle
    · simp only [Option.map_some, rowCount, Nat.min_eq_left hle]
    · simp only [Option.map_some, rowCount, Nat.min_eq_right hle]
      rw [List.take_of_length_le hlength, List.take_of_length_le (Nat.le_trans hlength hle)]

/-- The rows that a statement skips to and takes are those at its places. -/
theorem page_eq_filter (s : Statement) {rows : List α} {keeps : Nat → Bool}
    (h : ∀ place < rows.length, keeps place = true ↔ s.offset.getD 0 ≤ place ∧
      ∀ limit ∈ s.limit, place < s.offset.getD 0 + limit) :
    (rows.zipIdx.filter fun p => keeps p.2).map Prod.fst = page s rows := by
  have hz := zipIdx_slice rows (s.offset.getD 0) (s.limit.getD rows.length) 0
  have hpage : page s rows =
      (rows.drop (s.offset.getD 0)).take (s.limit.getD rows.length) := by
    simp only [page]
    rcases s.limit with _ | limit
    · rw [Option.getD_none, List.take_of_length_le]
      rw [List.length_drop]
      exact Nat.sub_le _ _
    · rfl
  rw [hpage, ← List.zipIdx_map_fst (0 + s.offset.getD 0) (List.take _ _), hz]
  refine congrArg (List.map Prod.fst) (List.filter_congr fun p hp => ?_)
  have hplace := List.snd_lt_add_of_mem_zipIdx hp
  rw [Bool.eq_iff_iff, h p.2 (by omega), decide_eq_true_eq]
  rcases s.limit with _ | limit
  · simp only [Option.getD_none, Option.mem_def, reduceCtorEq, IsEmpty.forall_iff, implies_true,
      and_true]
    omega
  · simp only [Option.getD_some, Option.mem_def, Option.some.injEq, forall_eq']
    omega

end Source

/-- **Clamped bounds keep the places that are asked for**, of all that the database can count. -/
theorem OffsetBounds.contains_clamped (offset : Nat) (limit : Option Nat) {place : Nat}
    (h : place < maxInt64) :
    (⟨rowCount offset, limit.map fun n => rowCount (offset + n)⟩ : OffsetBounds).contains
        place = true ↔
      offset ≤ place ∧ ∀ n ∈ limit, place < offset + n := by
  rcases limit with _ | n
  · simp [contains, rowCount_le_iff h]
  · simp [contains, rowCount_le_iff h, lt_rowCount_iff h]

/-! ### The text of a statement -/

namespace Statement

/-- The places that a page per parent keeps, if the statement cuts one out. -/
theorem offsetBounds?_eq_some {s : Statement} (hjoin : s.join.isSome) (hcount : s.countTotal = true)
    (h : s.limit.isSome ∨ s.offset.isSome) :
    s.offsetBounds? = some ⟨rowCount (s.offset.getD 0),
      s.limit.map fun limit => rowCount (s.offset.getD 0 + limit)⟩ := by
  simp only [offsetBounds?, hjoin, hcount, h, and_self, if_true, rowCount_addUpTo64]

/-- A statement that asks for all rows cuts out no page. -/
theorem offsetBounds?_eq_none {s : Statement} (hlimit : s.limit = none)
    (hoffset : s.offset = none) : s.offsetBounds? = none := by
  simp [offsetBounds?, hlimit, hoffset]

variable {s : Statement} {join : Join}

/-- The text of a nested statement that asks for all rows of each parent says nothing of places. -/
theorem clauses_nested (hjoin : s.join = some join) (h : s.offsetBounds? = none) :
    s.clauses = s.nestedClauses join ++ s.orderClause s.order := by
  simp only [clauses, hjoin, h]

/-- The text of a nested statement that cuts out a page of each parent's rows. -/
theorem clauses_bounded {bounds : OffsetBounds} (hjoin : s.join = some join)
    (h : s.offsetBounds? = some bounds) :
    s.clauses = ["SELECT * FROM (", lines (s.nestedClauses join), ") AS \"$window\"",
      "WHERE \"$offset\" >= " ++ toString bounds.start ++
        bounds.stop.elim "" (fun stop => " AND \"$offset\" < " ++ toString stop),
      "ORDER BY \"$parent_key\", \"$offset\""] := by
  have hsql : bounds.sql = "WHERE \"$offset\" >= " ++ toString bounds.start ++
      bounds.stop.elim "" (fun stop => " AND \"$offset\" < " ++ toString stop) := by
    rcases bounds with ⟨start, _ | stop⟩ <;> rfl
  have horder : s.orderClause s.order = ["ORDER BY \"$parent_key\", \"$offset\""] := by
    simp only [order, hjoin, h, Option.isSome_some, if_true]
    rfl
  simp only [clauses, hjoin, h, hsql, horder, List.cons_append, List.nil_append]

/-- The text of a statement at top level, but for the clauses that skip and take rows. -/
theorem clauses_top (hjoin : s.join = none) :
    s.clauses = { s with limit := none, offset := none }.clauses ++
      (s.limit.map fun n => "LIMIT " ++ toString (rowCount n)).toList ++
      (s.offset.map fun n => "OFFSET " ++ toString (rowCount n)).toList := by
  simp [clauses, hjoin, topClauses, order, orderClause]

/-- **Clamping never changes the rows that are kept.**  Of a set of rows, or of one parent's part of
it, that the database can count, a nested statement with a limit or an offset keeps the places from
its offset on, and as many of them as its limit says, and a statement at top level skips and takes
the rows that it says.  All numbers in the text are row counts, and a nested statement without limit
and offset has none. -/
theorem clauses_keep (hcount : s.countTotal = true) {α : Type} {rows : List α}
    (hrows : rows.length ≤ maxInt64) :
    (∀ join, s.join = some join → s.limit = none → s.offset = none →
      s.clauses = s.nestedClauses join ++ s.orderClause s.order) ∧
    (∀ join, s.join = some join → s.limit.isSome ∨ s.offset.isSome → ∃ bounds : OffsetBounds,
      s.clauses = ["SELECT * FROM (", lines (s.nestedClauses join), ") AS \"$window\"",
        "WHERE \"$offset\" >= " ++ toString bounds.start ++
          bounds.stop.elim "" (fun stop => " AND \"$offset\" < " ++ toString stop),
        "ORDER BY \"$parent_key\", \"$offset\""] ∧
      bounds.start ≤ maxInt64 ∧ (∀ stop ∈ bounds.stop, stop ≤ maxInt64) ∧
      bounds.stop.isSome = s.limit.isSome ∧
      (∀ place < rows.length, bounds.contains place = true ↔
        s.offset.getD 0 ≤ place ∧ ∀ limit ∈ s.limit, place < s.offset.getD 0 + limit) ∧
      (rows.zipIdx.filter fun p => bounds.contains p.2).map Prod.fst = Source.page s rows) ∧
    (s.join = none → ∃ take skip : Option Nat,
      s.clauses = { s with limit := none, offset := none }.clauses ++
        (take.map fun n => "LIMIT " ++ toString n).toList ++
        (skip.map fun n => "OFFSET " ++ toString n).toList ∧
      (∀ n ∈ take, n ≤ maxInt64) ∧ (∀ n ∈ skip, n ≤ maxInt64) ∧
      take.isSome = s.limit.isSome ∧ skip.isSome = s.offset.isSome ∧
      Source.page { s with limit := take, offset := skip } rows = Source.page s rows) := by
  refine ⟨fun join hjoin hlimit hoffset => ?_, fun join hjoin h => ?_, fun hjoin => ?_⟩
  · exact clauses_nested hjoin (offsetBounds?_eq_none hlimit hoffset)
  · have hbounds := offsetBounds?_eq_some (Option.isSome_of_eq_some hjoin) hcount h
    have hkeeps : ∀ place < rows.length, _ := fun place hplace =>
      OffsetBounds.contains_clamped (s.offset.getD 0) s.limit (Nat.lt_of_lt_of_le hplace hrows)
    refine ⟨_, clauses_bounded hjoin hbounds, rowCount_le _, ?_, Option.isSome_map, hkeeps,
      Source.page_eq_filter s hkeeps⟩
    intro stop hstop
    obtain ⟨limit, -, rfl⟩ := Option.map_eq_some_iff.mp hstop
    exact rowCount_le _
  · have hcounts : ∀ count : Option Nat, ∀ n ∈ count.map rowCount, n ≤ maxInt64 := by
      intro count n hn
      obtain ⟨m, -, rfl⟩ := Option.map_eq_some_iff.mp hn
      exact rowCount_le m
    refine ⟨s.limit.map rowCount, s.offset.map rowCount, ?_, hcounts _, hcounts _,
      Option.isSome_map, Option.isSome_map, Source.page_clamped s hrows⟩
    simp only [Option.map_map]
    exact clauses_top hjoin

/-- Two of three posts of each user are left from the second on, by a limit that no row count
reaches. -/
theorem clauses_keep_hugeLimit :
    let posts : Statement :=
      { table := "posts"
        join := some ⟨"users", "users", "id", "posts.user_id = users.id", ["1"]⟩
        orderBy := [⟨"id", .ascending⟩], limit := some maxUInt64, offset := some 1
        countTotal := true }
    posts.countTotal = true ∧ [1, 2, 3].length ≤ maxInt64 ∧
      posts.clauses[3]? =
        some "WHERE \"$offset\" >= 1 AND \"$offset\" < 9223372036854775807" ∧
      ∃ bounds : OffsetBounds,
        posts.clauses[3]? = some ("WHERE \"$offset\" >= " ++ toString bounds.start ++
          bounds.stop.elim "" (fun stop => " AND \"$offset\" < " ++ toString stop)) ∧
        ([1, 2, 3].zipIdx.filter fun p => bounds.contains p.2).map Prod.fst = [2, 3] := by
  intro posts
  have hrows : [1, 2, 3].length ≤ maxInt64 := by decide
  obtain ⟨bounds, htext, -, -, -, -, hpage⟩ :=
    (clauses_keep (s := posts) rfl hrows).2.1 _ rfl (.inl rfl)
  exact ⟨rfl, hrows, by decide +kernel, bounds, by rw [htext]; rfl, hpage⟩

end Statement

end RelaySql
