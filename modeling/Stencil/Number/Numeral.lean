import Stencil.Number.Binary64
import Stencil.Text.Digit

/-!
# Reading numerals

A numeral is an optional sign, digits with at most one point among them, and an optional exponent.
`Numeral.split?` takes it apart; whoever reads numbers decides which of its forms are allowed.
Digits may come from any script.
-/

set_option autoImplicit false

namespace Stencil

/-- The parts of a numeral. -/
structure Numeral where
  /-- Whether it starts with a minus sign. -/
  negative : Bool
  /-- The digits before the point. -/
  whole : Text
  /-- The digits behind the point, if there is a point. -/
  fraction : Option Text
  /-- The exponent, if there is one. -/
  exponent : Option Int

namespace Numeral

/-- The exponent written by a text without its mark: an optional sign and digits. -/
def readExponent? : Text → Option Int
  | '-' :: t => (Text.toNat? t).map fun n => -(n : Int)
  | '+' :: t => (Text.toNat? t).map (Int.ofNat ·)
  | t => (Text.toNat? t).map (Int.ofNat ·)

/-- Takes a numeral apart, or answers `none` if the text is none. -/
def split? (t : Text) : Option Numeral := do
  let (negative, t) : Bool × Text :=
    match t with
    | '-' :: t => (true, t)
    | '+' :: t => (false, t)
    | t => (false, t)
  let whole := t.takeWhile isDecimalDigit
  let t := t.dropWhile isDecimalDigit
  let (fraction, t) : Option Text × Text :=
    match t with
    | '.' :: t => (some (t.takeWhile isDecimalDigit), t.dropWhile isDecimalDigit)
    | t => (none, t)
  if whole = [] ∧ fraction.getD [] = [] then none
  match t with
  | [] => some ⟨negative, whole, fraction, none⟩
  | mark :: t =>
    if mark = 'e' ∨ mark = 'E' then
      (readExponent? t).map fun exponent => ⟨negative, whole, fraction, some exponent⟩
    else none

/-- The integer that the digits before the point write. -/
def toInt (n : Numeral) : Int :=
  if n.negative then -(Text.toNat n.whole : Int) else Text.toNat n.whole

/-- The binary64 number nearest to the numeral. -/
def toBinary64 (n : Numeral) : Binary64 :=
  let fraction := n.fraction.getD []
  Binary64.ofDecimal n.negative (Text.toNat (n.whole ++ fraction))
    (n.exponent.getD 0 - fraction.length)

end Numeral

/-- Reads a binary64 number, infinities and `nan` included. -/
def Binary64.ofText? (t : Text) : Option Binary64 :=
  if t = ['i', 'n', 'f'] then some (.infinite false)
  else if t = ['-', 'i', 'n', 'f'] then some (.infinite true)
  else if t = ['n', 'a', 'n'] then some .nan
  else (Numeral.split? t).map Numeral.toBinary64

end Stencil
