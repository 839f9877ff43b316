import RelaySql.Decimal.Shortest

/-!
# Decimals — writing a number out

A `Layout` says when a number is written positionally and when with an exponent, and whether a
whole number shows a fraction.  The layouts of the formats that write numbers are given here.
-/

namespace RelaySql

/-- How a decimal is written. -/
structure Layout where
  /-- Positional notation is used when the point's place lies in this closed range; without a range
  it is always used. -/
  positional : Option (Int × Int)
  /-- What follows a whole number in positional notation. -/
  whole : List Char

namespace Layout

/-- The digits with the point in its place. -/
def place (l : Layout) (digits : List Char) (point : Int) : List Char :=
  let zeros (n : Int) := List.replicate n.toNat '0'
  if point ≤ 0 then ['0', '.'] ++ zeros (-point) ++ digits
  else if digits.length ≤ point then digits ++ zeros (point - digits.length) ++ l.whole
  else digits.take point.toNat ++ ['.'] ++ digits.drop point.toNat

/-- One digit before the point, the others after it, and a signed exponent without padding. -/
def scientific (digits : List Char) (point : Int) : List Char :=
  let exponent := point - 1
  let mark := if exponent < 0 then ['e', '-'] else ['e', '+']
  let rest := if digits.tail = [] then [] else '.' :: digits.tail
  digits.take 1 ++ rest ++ mark ++ Nat.toDigits 10 exponent.natAbs

/-- The text of a decimal with its sign. -/
def chars (l : Layout) (negative : Bool) (d : Decimal) : List Char :=
  let inRange := match l.positional with
    | none => true
    | some (low, high) => low ≤ d.point ∧ d.point ≤ high
  let body := if inRange then l.place d.digits d.point else scientific d.digits d.point
  if negative then '-' :: body else body

/-- Numbers in rows, literals and messages: positional from `0.00001` up to below `10 ^ 16`, with
`.0` after a whole number, and scientific elsewhere. -/
def row : Layout := ⟨some (-4, 16), ['.', '0']⟩

/-- Numbers read from a settings document: always positional, a whole number without a fraction. -/
def settings : Layout := ⟨none, []⟩

end Layout

/-- The shortest text of a number that reads back, in a layout. -/
def Binary64.text (x : Binary64) (l : Layout) : String :=
  String.ofList (l.chars x.negative x.shortest)

end RelaySql
