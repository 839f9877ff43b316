import RelaySql.Json.Basic

/-!
# Input — the values given to arguments

A request gives a field's arguments as loosely typed values.  Messages show such a value the way
the query language writes it: an enumeration value by its bare name, a text between double quotes,
lists and objects with their parts.
-/

namespace RelaySql

/-- A value given to an argument. -/
inductive Input where
  | null
  | number (value : Number)
  | string (value : String)
  | boolean (value : Bool)
  | enumeration (name : String)
  | binary (bytes : List Nat)
  | list (items : List Input)
  | object (members : List (String × Input))
deriving Inhabited, Repr

namespace Input

/-- A decimal number padded with zeros to four digits. -/
def fourDigits (n : Nat) : List Char :=
  let ds := Nat.toDigits 10 n
  List.replicate (4 - ds.length) '0' ++ ds

/-- The characters that stand for `c` between double quotes; a control character without a letter
of its own is written by its code point in decimal. -/
def escapeChar (c : Char) : List Char :=
  match c with
  | '"' => ['\\', '"']
  | '\\' => ['\\', '\\']
  | '\n' => ['\\', 'n']
  | '\r' => ['\\', 'r']
  | '\t' => ['\\', 't']
  | c =>
    let n := c.toNat
    if n < 0x20 ∨ (0x7f ≤ n ∧ n < 0xa0) then ['\\', 'u'] ++ fourDigits n else [c]

/-- A text between double quotes. -/
def quote (s : String) : String :=
  String.ofList ('"' :: s.toList.flatMap escapeChar ++ ['"'])

mutual

/-- The value in the notation of the query language. -/
def text : Input → String
  | null => "null"
  | number n => n.text
  | string s => quote s
  | boolean true => "true"
  | boolean false => "false"
  | enumeration name => name
  | binary bytes => "[" ++ ",".intercalate (bytes.map toString) ++ "]"
  | list items => "[" ++ ",".intercalate (itemTexts items) ++ "]"
  | object members => "\x7b" ++ ",".intercalate (memberTexts members) ++ "\x7d"

def itemTexts : List Input → List String
  | [] => []
  | v :: r => v.text :: itemTexts r

def memberTexts : List (String × Input) → List String
  | [] => []
  | (n, v) :: r => (n ++ ": " ++ v.text) :: memberTexts r

end

end Input

end RelaySql
