import RelaySql.Text.Printable

/-!
# Text — quoted names

Messages and diagnostics show a name between double quotes.  A quote and a backslash inside it
are preceded by a backslash, the four controls with a letter of their own are written by it, and
every other character that is not printable is written by its code point in hexadecimal.
-/

namespace RelaySql.Text

/-- The characters that stand for `c` between double quotes. -/
def escapeChar (c : Char) : List Char :=
  match c with
  | '"' => ['\\', '"']
  | '\\' => ['\\', '\\']
  | '\n' => ['\\', 'n']
  | '\r' => ['\\', 'r']
  | '\t' => ['\\', 't']
  | '\x00' => ['\\', '0']
  | c => if isPrintable c then [c] else ['\\', 'u', '{'] ++ Nat.toDigits 16 c.toNat ++ ['}']

/-- A name between double quotes. -/
def quoted (s : String) : String :=
  String.ofList ('"' :: s.toList.flatMap escapeChar ++ ['"'])

theorem toList_quoted (s : String) :
    (quoted s).toList = '"' :: s.toList.flatMap escapeChar ++ ['"'] :=
  String.toList_ofList

end RelaySql.Text
