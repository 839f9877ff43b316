/-!
# Decimals — a natural number scaled by a power of ten

* `ofDigits` reads a row of digits; `Decimal.ofChars?` reads an unsigned decimal with an optional
  fraction and an optional exponent.
* `Decimal.digits` is the row of digits without trailing zeros, and `Decimal.point` the place of
  the decimal point relative to its start.
-/

namespace RelaySql

/-- The value of a row of decimal digits, most significant first. -/
def ofDigits (cs : List Char) : Nat :=
  cs.foldl (fun n c => 10 * n + (c.toNat - '0'.toNat)) 0

/-- The unsigned number `coefficient · 10 ^ exponent`. -/
structure Decimal where
  coefficient : Nat
  exponent : Int
deriving DecidableEq, Repr, Inhabited

namespace Decimal

/-- The exponent part: a mark, an optional sign, at least one digit, and nothing more. -/
def exponent? : List Char → Option Int
  | [] => some 0
  | mark :: rest =>
    let magnitude (ds : List Char) : Option Nat :=
      if ds ≠ [] ∧ ds.all Char.isDigit then some (ofDigits ds) else none
    if mark = 'e' ∨ mark = 'E' then
      match rest with
      | '-' :: ds => (magnitude ds).map fun n => -(n : Int)
      | '+' :: ds => (magnitude ds).map Int.ofNat
      | ds => (magnitude ds).map Int.ofNat
    else none

/-- The digits after a point, if there is one, and what follows them. -/
def fraction : List Char → List Char × List Char
  | '.' :: rest => rest.span Char.isDigit
  | rest => ([], rest)

/-- Reads digits, a fraction and an exponent.  Digits may be missing on one side of the point but
not on both. -/
def ofChars? (cs : List Char) : Option Decimal :=
  let (whole, rest) := cs.span Char.isDigit
  let (places, rest) := fraction rest
  if whole = [] ∧ places = [] then none
  else (exponent? rest).map fun e => ⟨ofDigits (whole ++ places), e - places.length⟩

/-- The digits of the coefficient without its trailing zeros; zero has the one digit `0`. -/
def digits (d : Decimal) : List Char :=
  if d.coefficient = 0 then ['0']
  else ((Nat.toDigits 10 d.coefficient).reverse.dropWhile (· == '0')).reverse

/-- How many digits of `digits` stand before the decimal point; the rest stand after it. -/
def point (d : Decimal) : Int :=
  if d.coefficient = 0 then 1 else (Nat.toDigits 10 d.coefficient).length + d.exponent

end Decimal

end RelaySql
