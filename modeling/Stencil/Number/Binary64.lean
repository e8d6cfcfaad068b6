/-!
# Binary floating-point numbers

A fractional number of a template or of its data is kept as a binary64 number: 53 bits of
significand and eleven of exponent.  The library never computes with them; it reads them, compares
them and prints them.  So a number is kept as its sign, its integral significand and its
exponent of two, and every step below is exact arithmetic on natural numbers.

`Binary64.ofRatio` rounds a quotient to the nearest number, a tie going to the even significand.
-/

set_option autoImplicit false

namespace Stencil

/-- A binary64 number.  A finite one has the magnitude `significand * 2 ^ exponent`. -/
inductive Binary64 where
  /-- A finite number, zero included. -/
  | finite (negative : Bool) (significand : Nat) (exponent : Int)
  /-- One of the two infinities. -/
  | infinite (negative : Bool)
  /-- The result that is not a number. -/
  | nan
deriving DecidableEq, Repr

namespace Binary64

/-- The exponent of the numbers nearest to zero. -/
def minExponent : Int := -1074

/-- The greatest exponent. -/
def maxExponent : Int := 971

/-- Zero with a sign. -/
def zero (negative : Bool) : Binary64 :=
  .finite negative 0 minExponent

/-- Whether the number is positive or negative zero. -/
def isZero : Binary64 → Bool
  | .finite _ significand _ => significand == 0
  | _ => false

/-- The quotient rounded to the nearest integer, a half going to the even neighbour. -/
def roundQuotient (num den : Nat) : Nat :=
  let q := num / den
  match compare (2 * (num % den)) den with
  | .lt => q
  | .gt => q + 1
  | .eq => if q % 2 = 0 then q else q + 1

/-- Numerator and denominator of `num / den / 2 ^ exponent`. -/
def scale (num den : Nat) (exponent : Int) : Nat × Nat :=
  (num * Nat.pow 2 (-exponent).toNat, den * Nat.pow 2 exponent.toNat)

/-- The number nearest to `num / den`, for a positive `den`. -/
def ofRatio (negative : Bool) (num den : Nat) : Binary64 :=
  if num = 0 then zero negative
  else
    -- the quotient lies below `2 ^ 54` at the first exponent and below `2 ^ 53` at the second
    let rough := max minExponent ((num.log2 : Int) - den.log2 - 53)
    let (n, d) := scale num den rough
    let exponent := if Nat.pow 2 53 ≤ n / d then rough + 1 else rough
    let (n, d) := scale num den exponent
    let rounded := roundQuotient n d
    let (significand, exponent) :=
      if rounded = Nat.pow 2 53 then (Nat.pow 2 52, exponent + 1) else (rounded, exponent)
    if exponent > maxExponent then .infinite negative
    else .finite negative significand exponent

/-- The number nearest to `digits * 10 ^ exponent`.  Magnitudes far beyond the range of binary64
are settled without computing the power of ten. -/
def ofDecimal (negative : Bool) (digits : Nat) (exponent : Int) : Binary64 :=
  let size := (Nat.toDigits 10 digits).length + exponent
  if digits = 0 || size < -400 then zero negative
  else if size > 400 then .infinite negative
  else ofRatio negative (digits * Nat.pow 10 exponent.toNat) (Nat.pow 10 (-exponent).toNat)

/-- Whether the number is the given integer. -/
def eqInt (x : Binary64) (i : Int) : Bool :=
  match x with
  | .finite negative significand exponent =>
    let (n, d) := scale i.natAbs 1 exponent
    n = significand * d && (significand == 0 || negative == decide (i < 0))
  | _ => false

/-- Equality of numbers: the two zeros are equal, and nothing equals the result that is not a
number. -/
def eqNumber : Binary64 → Binary64 → Bool
  | .nan, _ => false
  | _, .nan => false
  | x, y => (x.isZero && y.isZero) || x == y

/-- An integer as a number, exactly: its significand is as wide as it takes. -/
def ofInt (i : Int) : Binary64 :=
  .finite (decide (i < 0)) i.natAbs 0

/-- The multiple of a power of two that a sign, a significand and an exponent make up, for a power
that is not greater than theirs. -/
def multipleOf (power : Int) (negative : Bool) (significand : Nat) (exponent : Int) : Int :=
  let n : Int := significand * Nat.pow 2 (exponent - power).toNat
  if negative then -n else n

/-- Whether a number is less than another one. -/
def isBelow : Binary64 → Binary64 → Bool
  | .finite n s e, .finite n' s' e' =>
    let power := min e e'
    multipleOf power n s e < multipleOf power n' s' e'
  | .infinite n, .infinite n' => n && !n'
  | .infinite n, .finite _ _ _ => n
  | .finite _ _ _, .infinite n' => !n'
  | .nan, _ | _, .nan => false

example : ofDecimal false 1 (-1) = .finite false 7205759403792794 (-56) := by decide +kernel

example : ofDecimal false 5 (-324) = .finite false 1 (-1074) := by decide +kernel

example : ofDecimal true 18 308 = .infinite true := by decide +kernel

end Binary64

end Stencil
