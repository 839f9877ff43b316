import RelaySql.Decimal.Basic

/-!
# Decimals — the nearest binary number of double precision

A finite number of double precision is `± mantissa · 2 ^ exponent` with a mantissa below `2 ^ 53`
and the least exponent, not below `-1074`, that allows it.  `Binary64.ofDecimal?` takes a decimal to
the nearest of them, a tie to the even mantissa, in exact arithmetic on natural numbers.
-/

namespace RelaySql

/-- The finite number `± mantissa · 2 ^ exponent`. -/
structure Binary64 where
  negative : Bool
  mantissa : Nat
  exponent : Int
deriving DecidableEq, Repr, Inhabited

/-- The quotient rounded to the nearest whole number, a half to the even one. -/
def roundHalfEven (num den : Nat) : Nat :=
  let quotient := num / den
  let excess := 2 * (num % den)
  if den < excess ∨ (excess = den ∧ quotient % 2 = 1) then quotient + 1 else quotient

/-- The largest `k` with `2 ^ k ≤ num / den`. -/
def floorLog2 (num den : Nat) : Int :=
  let k : Int := (num.log2 : Int) - (den.log2 : Int)
  if num * Nat.pow 2 (-k).toNat < den * Nat.pow 2 k.toNat then k - 1 else k

namespace Binary64

/-- The least exponent of the format. -/
def minExponent : Int := -1074

/-- The greatest exponent of the format. -/
def maxExponent : Int := 971

/-- Zero, which has a sign. -/
def zero (negative : Bool) : Binary64 := ⟨negative, 0, minExponent⟩

/-- The number nearest to `num / den`, or nothing when that is beyond the greatest. -/
def ofRatio? (negative : Bool) (num den : Nat) : Option Binary64 :=
  if num = 0 then some (zero negative) else
  let e := max (floorLog2 num den - 52) minExponent
  let m := roundHalfEven (num * Nat.pow 2 (-e).toNat) (den * Nat.pow 2 e.toNat)
  let x : Binary64 :=
    if m = Nat.pow 2 53 then ⟨negative, Nat.pow 2 52, e + 1⟩ else ⟨negative, m, e⟩
  if maxExponent < x.exponent then none else some x

/-- The number nearest to a decimal, or nothing when that is beyond the greatest.  A decimal whose
point lies outside the format's range is decided without writing out the power of ten. -/
def ofDecimal? (negative : Bool) (d : Decimal) : Option Binary64 :=
  if d.coefficient = 0 ∨ d.point < -330 then some (zero negative)
  else if 310 < d.point then none
  else
    ofRatio? negative (d.coefficient * Nat.pow 10 d.exponent.toNat)
      (Nat.pow 10 (-d.exponent).toNat)

/-- The number nearest to `num / den · 2 ^ e`. -/
def ofScaled? (negative : Bool) (num den : Nat) (e : Int) : Option Binary64 :=
  ofRatio? negative (num * Nat.pow 2 e.toNat) (den * Nat.pow 2 (-e).toNat)

/-- The rounded product. -/
def mul? (x y : Binary64) : Option Binary64 :=
  ofScaled? (x.negative != y.negative) (x.mantissa * y.mantissa) 1 (x.exponent + y.exponent)

/-- The rounded quotient; there is none by zero. -/
def div? (x y : Binary64) : Option Binary64 :=
  if y.mantissa = 0 then none
  else ofScaled? (x.negative != y.negative) x.mantissa y.mantissa (x.exponent - y.exponent)

end Binary64

end RelaySql
