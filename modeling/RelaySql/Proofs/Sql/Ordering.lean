import Mathlib.Data.List.Forall2
import Mathlib.Data.List.TakeWhile
import RelaySql.Sql.Statement

/-!
# Statements — the order restated over a result

The query that returns each row as one object selects from a statement, and the order of a subquery
does not carry over.  It is stated twice, over the columns of the tables and over those of the
result, and the two go key by key.

* `OrderColumn.resultName_eq`: the name of a column in a result is what follows its last dot.
* `Statement.filter_isOrderBy_clauses`: the one clause of a statement that orders its rows.
* `Statement.Restates`: a key of a statement's order beside its form over the result.
* `Statement.jsonRowsSql_restates`: the two orders have the same keys.
-/

namespace RelaySql

/-- The name of a column in a result holds no dot, and nothing or a dot stands before it. -/
theorem OrderColumn.resultName_eq (o : OrderColumn) : ∃ before : List Char,
    o.column.toList = before ++ o.resultName.toList ∧ '.' ∉ o.resultName.toList ∧
      (before = [] ∨ before.getLast? = some '.') := by
  let undotted : Char → Bool := (· ≠ '.')
  let column := o.column.toList.reverse
  have hname : o.resultName.toList = (column.takeWhile undotted).reverse := String.toList_ofList
  refine ⟨(column.dropWhile undotted).reverse, ?_, ?_, ?_⟩
  · rw [hname, ← List.reverse_append, List.takeWhile_append_dropWhile, List.reverse_reverse]
  · rw [hname, List.mem_reverse]
    intro hmem
    simpa [undotted] using List.mem_takeWhile_imp hmem
  · rw [List.reverse_eq_nil_iff, List.getLast?_reverse]
    rcases hrest : column.dropWhile undotted with _ | ⟨c, rest⟩
    · exact .inl rfl
    · have hdot : undotted c = false := by
        have hhead := List.head_dropWhile_not undotted (l := column) (by simp [hrest])
        simpa only [hrest, List.head_cons] using hhead
      exact .inr (by simpa [undotted] using hdot)

namespace Statement

/-! ### The clause that orders -/

/-- The clause orders the rows that the clauses before it find. -/
def isOrderBy (clause : String) : Bool := clause.startsWith "ORDER BY "

/-- The clause that orders by keys of these texts, if there are any. -/
def orderByKeys (keys : List String) : List String :=
  if keys = [] then [] else ["ORDER BY " ++ ", ".intercalate keys]

theorem orderByKeys_eq_nil_iff {keys : List String} : orderByKeys keys = [] ↔ keys = [] := by
  simp [orderByKeys]

/-- A clause that begins differently does not order. -/
theorem isOrderBy_append {front : String} (hlong : ¬ "ORDER BY ".toList <+: front.toList)
    (hshort : ¬ front.toList <+: "ORDER BY ".toList) (rest : String) :
    isOrderBy (front ++ rest) = false := by
  rw [isOrderBy, Bool.eq_false_iff, ne_eq, String.startsWith_string_iff, String.toList_append]
  intro h
  exact (List.prefix_or_prefix_of_prefix h (List.prefix_append _ _)).elim hlong hshort

theorem isOrderBy_orderBy (rest : String) : isOrderBy ("ORDER BY " ++ rest) = true := by
  rw [isOrderBy, String.startsWith_string_iff, String.toList_append]
  exact List.prefix_append _ _

theorem filter_isOrderBy_orderClause (s : Statement) (keys : List OrderKey) :
    (s.orderClause keys).filter isOrderBy = orderByKeys (keys.map (·.sql s.table)) := by
  simp only [orderClause, orderByKeys, List.map_eq_nil_iff]
  split
  · rfl
  · simp only [List.filter_cons, isOrderBy_orderBy, if_true, List.filter_nil, commaSeparated]

/-- The clauses that find the rows of a batch of parents do not order them. -/
theorem filter_isOrderBy_nestedClauses (s : Statement) (join : Join) :
    (s.nestedClauses join).filter isOrderBy = [] := by
  rw [List.filter_eq_nil_iff]
  intro clause hclause
  rw [Bool.not_eq_true]
  simp only [nestedClauses, Join.clause, String.append_assoc, List.cons_append, List.nil_append,
    List.mem_cons, Option.mem_toList, Option.map_eq_some_iff] at hclause
  rcases hclause with rfl | rfl | rfl | rfl | ⟨condition, -, rfl⟩ <;>
    exact isOrderBy_append (by decide) (by decide) _

/-- The other clauses of a statement at top level do not order its rows. -/
theorem filter_isOrderBy_topClauses (s : Statement) :
    s.topClauses.filter isOrderBy = (s.orderClause s.order).filter isOrderBy := by
  have hcount : ∀ (front : String) (n : Option Nat), ¬ "ORDER BY ".toList <+: front.toList →
      ¬ front.toList <+: "ORDER BY ".toList →
      (n.map fun n => front ++ toString (rowCount n)).toList.filter isOrderBy = [] := by
    rintro front (_ | n) hlong hshort
    · rfl
    · simp [isOrderBy_append hlong hshort]
  have hselect : ∀ rest, isOrderBy ("SELECT " ++ rest) = false :=
    isOrderBy_append (by decide) (by decide)
  have hfrom : ∀ rest, isOrderBy ("FROM " ++ rest) = false :=
    isOrderBy_append (by decide) (by decide)
  have hwhere : ∀ rest, isOrderBy ("WHERE " ++ rest) = false :=
    isOrderBy_append (by decide) (by decide)
  have hfilter : (s.filter.map ("WHERE " ++ ·)).toList.filter isOrderBy = [] := by
    rcases s.filter with _ | condition
    · rfl
    · simp [hwhere]
  simp only [topClauses, String.append_assoc, List.filter_append, List.filter_cons, hselect, hfrom,
    Bool.false_eq_true, if_false, List.filter_nil, hfilter, List.nil_append,
    hcount "LIMIT " s.limit (by decide) (by decide),
    hcount "OFFSET " s.offset (by decide) (by decide), List.append_nil]

/-- The other clauses of a statement that keeps rows by their places do not order them. -/
theorem filter_isOrderBy_window (s : Statement) (join : Join) (bounds : OffsetBounds) :
    ["SELECT * FROM (", lines (s.nestedClauses join), ") AS \"$window\"",
      bounds.sql].filter isOrderBy = [] := by
  rw [List.filter_eq_nil_iff]
  intro clause hclause
  rw [Bool.not_eq_true]
  simp only [List.mem_cons, List.not_mem_nil, or_false] at hclause
  rcases hclause with rfl | rfl | rfl | rfl
  · decide +kernel
  · -- the clauses inside the parentheses begin with what they select
    simp only [nestedClauses, lines, String.append_assoc, List.cons_append,
      String.intercalate_cons_append]
    exact isOrderBy_append (by decide) (by decide) _
  · decide +kernel
  · simp only [OffsetBounds.sql, String.append_assoc]
    exact isOrderBy_append (by decide) (by decide) _

/-- **A statement orders its rows by one clause**, or by none if it has no keys. -/
theorem filter_isOrderBy_clauses (s : Statement) :
    s.clauses.filter isOrderBy = orderByKeys (s.order.map (·.sql s.table)) := by
  rw [← filter_isOrderBy_orderClause]
  simp only [clauses]
  split
  · exact s.filter_isOrderBy_topClauses
  · split
    · rw [List.filter_append, filter_isOrderBy_nestedClauses, List.nil_append]
    · rw [List.filter_append, filter_isOrderBy_window, List.nil_append]

/-! ### The keys of the two orders -/

/-- A key of the order of `s`, and the key of the wrapping query that restates it. -/
inductive Restates (s : Statement) : String → String → Prop
  /-- Rows of a batch go by the key of their parent. -/
  | parent {join : Join} (h : s.join = some join) :
      s.Restates (join.parentAlias ++ "." ++ join.parentKey) "\"$row\".\"$parent_key\""
  /-- Rows cut out by their places have that key as a column. -/
  | windowParent (h : s.offsetBounds?.isSome) :
      s.Restates "\"$parent_key\"" "\"$row\".\"$parent_key\""
  | windowPlace (h : s.offsetBounds?.isSome) :
      s.Restates "\"$offset\"" "\"$row\".\"$offset\""
  /-- A column loses the qualification in front of its last dot and keeps its direction. -/
  | column {o : OrderColumn} (h : o ∈ s.orderBy) {before : List Char} {name : String}
      (hname : o.column.toList = before ++ name.toList) (hdot : '.' ∉ name.toList)
      (hbefore : before = [] ∨ before.getLast? = some '.') :
      s.Restates (o.sql s.table) ("\"$row\"." ++ name ++ " " ++ o.direction.keyword)

theorem restates_column (s : Statement) {o : OrderColumn} (h : o ∈ s.orderBy) :
    s.Restates ((OrderKey.column o).sql s.table)
      (ResultKey.column o.resultName o.direction).sql := by
  obtain ⟨before, hname, hdot, hbefore⟩ := o.resultName_eq
  exact .column h hname hdot hbefore

theorem restates_order (s : Statement) :
    List.Forall₂ s.Restates (s.order.map (·.sql s.table)) (s.resultOrder.map (·.sql)) := by
  have hcolumns : List.Forall₂ s.Restates ((s.orderBy.map OrderKey.column).map (·.sql s.table))
      ((s.orderBy.map fun o => ResultKey.column o.resultName o.direction).map (·.sql)) := by
    simpa only [List.forall₂_map_left_iff, List.forall₂_map_right_iff, List.forall₂_same] using
      fun o => s.restates_column
  simp only [order, resultOrder]
  rcases hjoin : s.join with _ | join
  · have hwindow : s.offsetBounds?.isSome = false := by simp [offsetBounds?, hjoin]
    simpa only [hwindow, Option.isSome_none, Bool.false_eq_true, if_false, List.nil_append] using
      hcolumns
  · rcases hwindow : s.offsetBounds?.isSome with _ | _
    · exact .cons (.parent hjoin) hcolumns
    · have hparent : s.Restates (quotedColumn parentKeyColumn)
          ("\"$row\"." ++ quotedColumn parentKeyColumn) := by
        simpa [quotedColumn, parentKeyColumn] using Restates.windowParent hwindow
      have hplace : s.Restates (quotedColumn offsetColumn)
          ("\"$row\"." ++ quotedColumn offsetColumn) := by
        simpa [quotedColumn, offsetColumn] using Restates.windowPlace hwindow
      exact .cons hparent (.cons hplace .nil)

/-- The query that returns each row as one object puts its clauses around those of the statement. -/
theorem jsonRowsSql_eq (s : Statement) :
    s.jsonRowsSql = lines (["SELECT row_to_json(\"$row\")", "FROM (", s.sql, ") AS \"$row\""] ++
      orderByKeys (s.resultOrder.map (·.sql))) := by
  unfold jsonRowsSql
  rw [← String.toList_inj]
  by_cases h : s.resultOrder = [] <;> simp [h, orderByKeys, lines, commaSeparated]

/-- **The query that returns each row as one object states the order of its statement again.**  It
orders its rows if the statement does, by the same keys one after the other, each over the columns
of the result. -/
theorem jsonRowsSql_restates (s : Statement) :
    s.sql = lines s.clauses ∧
    s.clauses.filter isOrderBy = orderByKeys (s.order.map (·.sql s.table)) ∧
    s.jsonRowsSql = lines (["SELECT row_to_json(\"$row\")", "FROM (", s.sql, ") AS \"$row\""] ++
      orderByKeys (s.resultOrder.map (·.sql))) ∧
    List.Forall₂ s.Restates (s.order.map (·.sql s.table)) (s.resultOrder.map (·.sql)) ∧
    (s.clauses.any isOrderBy ↔ s.resultOrder ≠ []) := by
  refine ⟨rfl, s.filter_isOrderBy_clauses, s.jsonRowsSql_eq, s.restates_order, ?_⟩
  have hkeys : s.order.map (·.sql s.table) = [] ↔ s.resultOrder = [] := by
    rw [← List.length_eq_zero_iff, s.restates_order.length_eq, List.length_eq_zero_iff,
      List.map_eq_nil_iff]
  have hnone : s.clauses.filter isOrderBy = [] ↔ s.resultOrder = [] := by
    rw [filter_isOrderBy_clauses, orderByKeys_eq_nil_iff, hkeys]
  rw [ne_eq, ← hnone, List.filter_eq_nil_iff, List.any_eq_true]
  simp

end Statement

end RelaySql
