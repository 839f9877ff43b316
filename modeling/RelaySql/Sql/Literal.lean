import RelaySql.Fault

/-!
# Sql — literals

Numbers, texts and truth values can be written into a statement.  A text stands between single
quotes, and a single quote inside it is written twice.

* `quote`: the literal of a text.
* `literal`: the literal of a value that has one.
-/

namespace RelaySql.Sql

/-- The characters of a text with every single quote written twice. -/
def quoteChars : List Char → List Char
  | [] => []
  | c :: r => if c = '\'' then c :: c :: quoteChars r else c :: quoteChars r

/-- The literal of a text. -/
def quote (s : String) : String :=
  String.ofList ('\'' :: quoteChars s.toList ++ ['\''])

/-- The literal of a truth value. -/
def truth (b : Bool) : String := if b then "TRUE" else "FALSE"

/-- The literal of a value; null, arrays and objects have none. -/
def literal : Json → Except Fault String
  | .number n => .ok n.text
  | .string s => .ok (quote s)
  | .boolean b => .ok (truth b)
  | v => .error (.argument (.notLiteral v))

end RelaySql.Sql
