import RelaySql.Decimal.Binary64

/-!
# Decimals — the shortest decimal that reads back

The decimals that round to a given number of double precision fill an interval around it: half a
unit of the last place up and half a unit down, a quarter down at a power of two, the ends included
exactly when the mantissa is even.  `Binary64.shortest` goes through the decimal grids from the
coarsest to the finest and takes the first that has a point in the interval; of two such points it
takes the nearer one, of two equally near ones the even one.

* `Interval.pick?`: the point of one grid that is taken.
* `Interval.coarsest`: the point of the coarsest grid that has one.
-/

namespace RelaySql

/-- The decimals that round to `middle`, all counted in one unit. -/
structure Interval where
  low : Nat
  middle : Nat
  high : Nat
  closed : Bool

namespace Interval

/-- The number lies in the interval. -/
def holds (i : Interval) (n : Nat) : Bool :=
  if i.closed then i.low ≤ n ∧ n ≤ i.high else i.low < n ∧ n < i.high

/-- The neighbour of the middle on the grid of multiples of `step` that lies in the interval. -/
def pick? (i : Interval) (step : Nat) : Option Nat :=
  let below := i.middle / step * step
  let above := below + step
  match i.holds below, i.holds above with
  | false, false => none
  | true, false => some below
  | false, true => some above
  | true, true =>
    let down := i.middle - below
    let up := above - i.middle
    if down < up ∨ (down = up ∧ i.middle / step % 2 = 0) then some below else some above

/-- The point of the coarsest grid, among those of `10 ^ n` and finer, that lies in the interval;
the middle itself when only the finest grid has one. -/
def coarsest (i : Interval) : Nat → Nat
  | 0 => i.middle
  | n + 1 => (i.pick? (Nat.pow 10 (n + 1))).getD (i.coarsest n)

end Interval

namespace Binary64

/-- The decimals that round to a positive number, counted in units of `10 ^ scale`, and `scale`.
Powers of two below one are written as powers of five over powers of ten. -/
def interval (x : Binary64) : Interval × Int :=
  let e := x.exponent - 2
  let unit := if e < 0 then Nat.pow 5 (-e).toNat else Nat.pow 2 e.toNat
  let down := if x.mantissa = Nat.pow 2 52 ∧ minExponent < x.exponent then 1 else 2
  (⟨(4 * x.mantissa - down) * unit, 4 * x.mantissa * unit, (4 * x.mantissa + 2) * unit,
    x.mantissa % 2 = 0⟩, min e 0)

/-- The shortest decimal that reads back as the number's magnitude. -/
def shortest (x : Binary64) : Decimal :=
  if x.mantissa = 0 then ⟨0, 0⟩ else
  let (i, scale) := x.interval
  ⟨i.coarsest (Nat.toDigits 10 i.middle).length, scale⟩

end Binary64

end RelaySql
