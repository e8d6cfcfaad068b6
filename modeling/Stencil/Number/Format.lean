import Stencil.Number.Shortest
import Stencil.Text.Basic

/-!
# How fractional numbers are written

A number is written with the fewest digits that read back.  `Format.plain` fixes the rest:
positional notation when the first digit stands at a power of ten from `10 ^ -4` to `10 ^ 15`, with
at least one digit on either side of the point, and otherwise one digit before the point and an
exponent with a sign and at least two digits.
-/

set_option autoImplicit false

namespace Stencil.Binary64

/-- The decisions of a format for numbers that the digits leave open. -/
structure Format where
  /-- The least power of ten of a leading digit that is written positionally. -/
  minPositional : Int
  /-- The greatest power of ten of a leading digit that is written positionally. -/
  maxPositional : Int
  /-- What a positional number without a fraction ends in. -/
  emptyFraction : Text
  /-- The mark before an exponent. -/
  exponentMark : Text
  /-- The least number of digits of an exponent. -/
  exponentWidth : Nat
  /-- The word for infinity. -/
  infinity : Text
  /-- The word for the result that is not a number. -/
  notANumber : Text

/-- The notation of this library's output. -/
def Format.plain : Format where
  minPositional := -4
  maxPositional := 15
  emptyFraction := ['.', '0']
  exponentMark := ['e']
  exponentWidth := 2
  infinity := ['i', 'n', 'f']
  notANumber := ['n', 'a', 'n']

namespace Format

/-- An exponent with its sign. -/
def exponentText (n : Format) (exponent : Int) : Text :=
  let digits := Text.ofNat exponent.natAbs
  n.exponentMark ++ (if exponent < 0 then '-' else '+') ::
    (List.replicate (n.exponentWidth - digits.length) '0' ++ digits)

/-- The text of a positive decimal. -/
def magnitude (n : Format) (d : Decimal) : Text :=
  let digits := Text.ofNat d.digits
  -- the number of digits before the point
  let point : Int := digits.length + d.exponent
  if point - 1 < n.minPositional ∨ n.maxPositional < point - 1 then
    let fraction := digits.tail
    digits.take 1 ++ (if fraction.isEmpty then [] else '.' :: fraction) ++
      n.exponentText (point - 1)
  else if point ≤ 0 then
    '0' :: '.' :: (List.replicate (-point).toNat '0' ++ digits)
  else if d.exponent ≥ 0 then
    digits ++ List.replicate d.exponent.toNat '0' ++ n.emptyFraction
  else
    digits.take point.toNat ++ '.' :: digits.drop point.toNat

/-- The text of a number. -/
def text (n : Format) (x : Binary64) : Text :=
  let signed (negative : Bool) (t : Text) : Text := if negative then '-' :: t else t
  match x with
  | .nan => n.notANumber
  | .infinite negative => signed negative n.infinity
  | .finite negative significand exponent =>
    signed negative <|
      if significand = 0 then '0' :: n.emptyFraction
      else n.magnitude (shortest significand exponent)

end Format

/-- The text of a number in the notation of this library's output. -/
def toText (x : Binary64) : Text :=
  Format.plain.text x

example : toText (ofDecimal false 1 16) = "1e+16".toList := by decide +kernel

example : toText (ofDecimal true 123456 (-7)) = "-0.0123456".toList := by decide +kernel

example : toText (ofDecimal false 1 (-5)) = "1e-05".toList := by decide +kernel

end Stencil.Binary64
