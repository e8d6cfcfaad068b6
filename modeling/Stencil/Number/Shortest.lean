import Stencil.Number.Binary64

/-!
# The fewest digits that read back

All decimals near a binary64 number round to it.  The shortest decimal among them is found by
search: on the grids of the powers of ten, from coarse to fine, the two neighbours of the number
are tested, and the first grid on which one of them reads back wins.

Reading back is a comparison with the two ends of the interval of reals that round to the number.
The ends lie halfway to the neighbouring numbers; below a power of two the neighbour is nearer than
above.  An end belongs to the interval exactly when the significand is even, because a tie goes to
the even neighbour.  All comparisons are made in units of a quarter of the last binary place.
-/

set_option autoImplicit false

namespace Stencil.Binary64

/-- `digits * 10 ^ exponent`. -/
structure Decimal where
  /-- The digits, as an integer. -/
  digits : Nat
  /-- The exponent of ten. -/
  exponent : Int
deriving DecidableEq, Repr

/-- The reals that round to `significand * 2 ^ exponent`, in units of `2 ^ (exponent - 2)`. -/
structure Interval where
  /-- The lower end. -/
  low : Nat
  /-- The number itself. -/
  middle : Nat
  /-- The upper end. -/
  high : Nat
  /-- Whether the ends belong to it. -/
  closed : Bool

/-- The interval of a number other than zero. -/
def interval (significand : Nat) (exponent : Int) : Interval where
  low :=
    if significand = Nat.pow 2 52 ∧ exponent ≠ minExponent then 4 * significand - 1
    else 4 * significand - 2
  middle := 4 * significand
  high := 4 * significand + 2
  closed := significand % 2 == 0

/-- Numerator and denominator of the number of grid steps of `10 ^ grid` in a unit of
`2 ^ (exponent - 2)`. -/
def stepsPerUnit (exponent grid : Int) : Nat × Nat :=
  (Nat.pow 2 (exponent - 2).toNat * Nat.pow 10 (-grid).toNat,
    Nat.pow 2 (2 - exponent).toNat * Nat.pow 10 grid.toNat)

/-- The grid point nearest to the number among its two neighbours that round to it, a tie going to
the even one. -/
def onGrid? (i : Interval) (exponent grid : Int) : Option Nat :=
  let (num, den) := stepsPerUnit exponent grid
  let inside (n : Nat) : Bool :=
    (i.low * num < n * den || (i.closed && i.low * num == n * den)) &&
      (n * den < i.high * num || (i.closed && n * den == i.high * num))
  let below := i.middle * num / den
  let nearest := roundQuotient (i.middle * num) den
  if inside nearest then some nearest
  else if inside below then some below
  else if inside (below + 1) then some (below + 1)
  else none

/-- The shortest decimal that reads back as `significand * 2 ^ exponent`, for a positive
significand.  The coarsest grid tried is too coarse for every number of that size and the finest
one finer than the interval, so the search does not fail. -/
def shortest (significand : Nat) (exponent : Int) : Decimal :=
  let coarsest : Int := ((significand.log2 : Int) + exponent + 1) * 30103 / 100000 + 1
  let i := interval significand exponent
  let hit? (step : Nat) : Option Decimal :=
    (onGrid? i exponent (coarsest - step)).map fun digits => ⟨digits, coarsest - step⟩
  ((List.range 24).findSome? hit?).getD ⟨0, 0⟩

example : shortest 7205759403792794 (-56) = ⟨1, -1⟩ := by decide +kernel

example : shortest 1 (-1074) = ⟨5, -324⟩ := by decide +kernel

end Stencil.Binary64
