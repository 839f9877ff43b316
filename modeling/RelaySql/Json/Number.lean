import RelaySql.Decimal.Layout

/-!
# Json — numbers

A number is whole when it is written without fraction and exponent and fits 64 bits, signed or
unsigned; every other number is of double precision.  The two kinds stay apart: `1` and `1.0` are
different numbers with different texts.

* `Number.ofChars?` reads a number; `Number.text` writes it.
-/

namespace RelaySql

/-- The largest signed 64-bit integer: offsets and row counts of the database stay within it. -/
def maxInt64 : Nat := 0x7fffffffffffffff

/-- The least signed 64-bit integer. -/
def minInt64 : Int := -0x8000000000000000

/-- The largest unsigned 64-bit integer. -/
def maxUInt64 : Nat := 0xffffffffffffffff

/-- A sum that stops at the largest unsigned 64-bit integer. -/
def addUpTo64 (a b : Nat) : Nat := min (a + b) maxUInt64

/-- A number of either kind. -/
inductive Number where
  | whole (value : Int)
  | real (value : Binary64)
deriving DecidableEq, Repr, Inhabited

namespace Number

/-- The text of a number in rows, literals and messages. -/
def text : Number → String
  | whole n => toString n
  | real x => x.text Layout.row

/-- The value of a whole number that fits a signed 64-bit integer. -/
def int64? : Number → Option Int
  | whole n => if minInt64 ≤ n ∧ n ≤ maxInt64 then some n else none
  | real _ => none

/-- The value of a whole number that is not negative. -/
def nat? : Number → Option Nat
  | whole n => if 0 ≤ n then some n.toNat else none
  | real _ => none

/-- Takes up digits as long as the number they make with `n` fits 64 bits: the number, and the
digits that are left. -/
def takeUp (n : Nat) : List Char → Nat × List Char
  | [] => (n, [])
  | c :: rest =>
    let longer := 10 * n + ofDigits [c]
    if longer ≤ maxUInt64 then takeUp longer rest else (n, c :: rest)

/-- A number times a power of ten that double precision can hold; the power, the product and each
quotient are rounded.  A smaller power is divided out in parts. -/
def scale? (x : Binary64) (e : Int) : Option Binary64 :=
  let power (n : Nat) := Binary64.ofRatio? false (Nat.pow 10 n) 1
  if x.mantissa = 0 then some x
  else if 308 < e then none
  else if 0 ≤ e then (power e.toNat).bind x.mul?
  else if -308 ≤ e then (power (-e).toNat).bind x.div?
  else ((power 308).bind x.div?).bind fun y => scale? y (e + 308)
termination_by (-e).toNat
decreasing_by omega

/-- Reads a number: an optional sign, digits, a fraction and an exponent.  Of a number that is not
whole the digits that fit 64 bits are taken up and then scaled; of its further whole digits only
the count matters.  A negative zero is not whole, since whole numbers have one zero only. -/
def ofChars? (cs : List Char) : Option Number :=
  let (negative, magnitude) := match cs with
    | '-' :: rest => (true, rest)
    | rest => (false, rest)
  let n : Int := if negative then -(ofDigits magnitude : Int) else ofDigits magnitude
  if magnitude ≠ [] ∧ magnitude.all Char.isDigit ∧ minInt64 ≤ n ∧ n ≤ maxUInt64 ∧
      ¬ (negative ∧ n = 0) then
    some (whole n)
  else
    let (digits, rest) := magnitude.span Char.isDigit
    let (places, rest) := Decimal.fraction rest
    let (taken, left) := takeUp 0 digits
    let (taken, dropped) := takeUp taken places
    (Decimal.exponent? rest).bind fun e =>
      let e := e + left.length - (places.length - dropped.length : Nat)
      ((Binary64.ofRatio? negative taken 1).bind fun x => scale? x e).map real

end Number

end RelaySql
