import RelaySql.Json.Number

/-!
# Yaml — values

A scalar that is not quoted is a null, a truth value, a number or a text, by its spelling.  Whole
numbers may be hexadecimal, octal or binary.  A row of digits with a leading zero is a text, and so
is everything that is spelled like no number.

* `Value.ofPlain?` reads a scalar that is not quoted.
-/

namespace RelaySql.Yaml

/-- A number of a settings document. -/
inductive Numeral where
  | finite (value : Number)
  | infinity (negative : Bool)
  | notANumber
deriving DecidableEq, Repr

/-- The text of a number: whole numbers without a fraction, and never an exponent. -/
def Numeral.text : Numeral → String
  | finite (.whole n) => toString n
  | finite (.real x) => x.text Layout.settings
  | infinity false => ".inf"
  | infinity true => "-.inf"
  | notANumber => ".nan"

/-- A value of a settings document; members of mappings are in order and may repeat a key. -/
inductive Value where
  | null
  | boolean (value : Bool)
  | number (value : Numeral)
  | string (value : String)
  | sequence (items : List Value)
  | mapping (pairs : List (Value × Value))
deriving Repr, Inhabited

/-- A sign and what follows it. -/
def splitSign : List Char → Option Char × List Char
  | '+' :: r => (some '+', r)
  | '-' :: r => (some '-', r)
  | cs => (none, cs)

/-- The digit's value in a base of at most sixteen. -/
def digitValue? (base : Nat) (c : Char) : Option Nat :=
  let lower := c.toLower
  let value :=
    if c.isDigit then some (c.toNat - '0'.toNat)
    else if 'a' ≤ lower ∧ lower ≤ 'f' then some (lower.toNat - 'a'.toNat + 10)
    else none
  value.filter (· < base)

/-- The value of at least one digit in a base. -/
def digits? (base : Nat) (cs : List Char) : Option Nat :=
  if cs = [] then none
  else (cs.mapM (digitValue? base)).map fun ds => ds.foldl (fun n d => base * n + d) 0

/-- A natural number: in decimal without leading zeros, or behind the mark of another base. -/
def natural? : List Char → Option Nat
  | '0' :: 'x' :: r => digits? 16 r
  | '0' :: 'o' :: r => digits? 8 r
  | '0' :: 'b' :: r => digits? 2 r
  | '0' :: _ :: _ => none
  | cs => digits? 10 cs

/-- A whole number with its sign. -/
def whole? (cs : List Char) : Option Int :=
  match splitSign cs with
  | (some '-', r) => (natural? r).map fun n => -(n : Int)
  | (_, r) => (natural? r).map Int.ofNat

/-- A row of digits with a leading zero, perhaps with a sign. -/
def isZeroPadded (cs : List Char) : Bool :=
  let (_, digits) := splitSign cs
  1 < digits.length && digits.head? = some '0' && digits.all Char.isDigit

/-- The numbers that are words. -/
def wordNumber? (s : String) : Option Numeral :=
  if s ∈ [".inf", ".Inf", ".INF", "+.inf", "+.Inf", "+.INF"] then some (.infinity false)
  else if s ∈ ["-.inf", "-.Inf", "-.INF"] then some (.infinity true)
  else if s ∈ [".nan", ".NaN", ".NAN"] then some .notANumber
  else none

/-- A decimal number with its sign, of double precision. -/
def real? (cs : List Char) : Option Numeral :=
  let (sign, magnitude) := splitSign cs
  (Decimal.ofChars? magnitude).bind fun d =>
    (Binary64.ofDecimal? (sign = some '-') d).map fun x => .finite (.real x)

namespace Value

/-- The value of a scalar that is not quoted.  A whole number beyond 64 bits that fits 128 is no
value. -/
def ofPlain? (s : String) : Option Value :=
  let cs := s.toList
  if s ∈ ["", "~", "null"] then some null
  else if s = "true" then some (boolean true)
  else if s = "false" then some (boolean false)
  else match whole? cs with
    | some n =>
      if minInt64 ≤ n ∧ n ≤ maxUInt64 then some (number (.finite (.whole n)))
      else if -(Nat.pow 2 127 : Int) ≤ n ∧ n < (Nat.pow 2 128 : Int) then none
      else some (((real? cs).map number).getD (string s))
    | none =>
      if isZeroPadded cs then some (string s)
      else some (((wordNumber? s <|> real? cs).map number).getD (string s))

/-- The value of a scalar; a quoted one is a text. -/
def ofScalar? (quoted : Bool) (s : String) : Option Value :=
  if quoted then some (string s) else ofPlain? s

/-- The last value under a name; what is no mapping has none. -/
def member? : Value → String → Option Value
  | mapping pairs, name =>
    (pairs.reverse.find? fun p => match p.1 with
      | string s => s = name
      | _ => false).map Prod.snd
  | _, _ => none

end Value

end RelaySql.Yaml
