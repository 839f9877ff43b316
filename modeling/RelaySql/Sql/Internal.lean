import RelaySql.Json.Basic

/-!
# Sql — the columns a statement adds

Beside the columns of its table a statement may select three of its own, which no reader of a page
sees: the size of the result, the key of the parent row, and the place of a row among the rows of
its parent.

* `Row.get?_visible`: `Row.visible` keeps every other column with its value.
-/

namespace RelaySql

/-- The size of the whole result, or of one parent's part of it. -/
def totalColumn : String := "$total"

/-- The key of the parent row that a row belongs to. -/
def parentKeyColumn : String := "$parent_key"

/-- The place of a row among the rows of its parent, from zero. -/
def offsetColumn : String := "$offset"

/-- The column is one that statements add. -/
def isInternal (column : String) : Bool :=
  column = totalColumn || column = parentKeyColumn || column = offsetColumn

/-- The row without the columns that statements add. -/
def Row.visible (row : Row) : Row := row.filter fun c => !isInternal c.1

theorem Row.get?_visible (row : Row) {column : String} (h : isInternal column = false) :
    Fields.get? row.visible column = Fields.get? row column := by
  induction row with
  | nil => rfl
  | cons p r ih =>
    obtain ⟨n, v⟩ := p
    simp only [Row.visible] at ih ⊢
    by_cases hn : n = column
    · subst hn; simp [Fields.get?, h]
    · by_cases hi : isInternal n = true <;> simp [Fields.get?, hn, hi, ih]

end RelaySql
