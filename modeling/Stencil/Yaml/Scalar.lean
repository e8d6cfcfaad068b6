import Stencil.Number.Numeral
import Stencil.Value.Basic

/-!
# The scalars of YAML

A scalar is written with or without quotes.  Without them it is plain, and `PlainScalar.value` says
what it stands for: nothing, a truth value, a number in one of several notations, or else the text
that it is.  With double quotes it is a text in which `Escape.read?` reads what follows a backslash.
-/

set_option autoImplicit false

namespace Stencil.Yaml

/-! ## Plain scalars -/

/-- The value of a hexadecimal digit. -/
def hexDigit? (c : Char) : Option Nat :=
  if '0' ≤ c ∧ c ≤ '9' then some (c.toNat - '0'.toNat)
  else if 'a' ≤ c ∧ c ≤ 'f' then some (c.toNat - 'a'.toNat + 10)
  else if 'A' ≤ c ∧ c ≤ 'F' then some (c.toNat - 'A'.toNat + 10)
  else none

/-- The value of a digit below `base`. -/
def digit? (base : Nat) (c : Char) : Option Nat :=
  (hexDigit? c).filter (· < base)

/-- The number that at least one digit below `base` writes. -/
def digits? (base : Nat) (t : Text) : Option Nat :=
  if t.isEmpty then none else t.foldlM (fun n c => (digit? base c).map (n * base + ·)) 0

namespace PlainScalar

/-- A text without the underscores that may stand between digits. -/
def withoutGaps (t : Text) : Text :=
  t.filter (· != '_')

/-- The number that digits write, which may have a mark for their base in front of them. -/
def natural? : Text → Option Nat
  | '0' :: 'b' :: t => digits? 2 (withoutGaps t)
  | '0' :: 'o' :: t => digits? 8 (withoutGaps t)
  | '0' :: 'x' :: t => digits? 16 (withoutGaps t)
  | t => digits? 10 (withoutGaps t)

/-- The integer that a text writes. -/
def integer? : Text → Option Int
  | '_' :: _ => none
  | '-' :: t => (natural? t).map fun n => -(n : Int)
  | '+' :: t => (natural? t).map fun n => (n : Int)
  | t => (natural? t).map fun n => (n : Int)

/-- A text without its sign. -/
def unsigned : Text → Text
  | '-' :: t | '+' :: t => t
  | t => t

/-- Whether a text has the form of a fractional number that `n` has been split from: it has a point
or an exponent, underscores do not stand first or in the exponent, and behind a point that stands
first an exponent has a sign. -/
def isFractional (t : Text) (n : Numeral) : Bool :=
  let exponent := t.dropWhile fun c => c != 'e' && c != 'E'
  t.all (·.toNat < 128) && (n.fraction.isSome || n.exponent.isSome) &&
    (unsigned t).head? != some '_' && !exponent.contains '_' &&
    (!n.whole.isEmpty || exponent.isEmpty || exponent.any fun c => c == '-' || c == '+')

/-- The fractional number that a text writes, infinities and `.nan` included. -/
def fractional? (t : Text) : Option Binary64 :=
  if unsigned t ∈ [(".inf" : Text), ".Inf", ".INF"] then some (.infinite (t.head? = some '-'))
  else if t ∈ [(".nan" : Text), ".NaN", ".NAN"] then some .nan
  else
    (Numeral.split? (withoutGaps t)).bind fun n =>
      if isFractional t n then some n.toBinary64 else none

/-- The value that a plain scalar stands for.  Scalars with a meaning beyond that have none. -/
def value (t : Text) : Option Value :=
  if t ∈ [([] : Text), "~", "null", "Null", "NULL"] then some .null
  else if t ∈ [("true" : Text), "True", "TRUE"] then some (.bool true)
  else if t ∈ [("false" : Text), "False", "FALSE"] then some (.bool false)
  else if t ∈ [("=" : Text), "<<"] then none
  else
    match integer? t, fractional? t with
    | some i, _ => some (.int i)
    | none, some x => some (.float x)
    | none, none => some (.text t)

end PlainScalar

/-! ## Escapes -/

namespace Escape

/-- The character that a single letter stands for. -/
def simple? : Char → Option Char
  | '0' => some '\x00'
  | 'a' => some '\x07'
  | 'b' => some '\x08'
  | 't' | '\t' => some '\t'
  | 'n' => some '\n'
  | 'v' => some '\x0b'
  | 'f' => some '\x0c'
  | 'r' => some '\r'
  | 'e' => some '\x1b'
  | ' ' => some ' '
  | '"' => some '"'
  | '/' => some '/'
  | '\\' => some '\\'
  | 'N' => some '\u0085'
  | '_' => some '\u00a0'
  | 'L' => some '\u2028'
  | 'P' => some '\u2029'
  | _ => none

/-- The number that the first `count` characters of a text write in hexadecimal digits. -/
def code? (count : Nat) (t : Text) : Option Nat :=
  if (t.take count).length = count then digits? 16 (t.take count) else none

/-- The character of a code. -/
def char? (code : Nat) : Option Char :=
  if code.isValidChar then some (Char.ofNat code) else none

/-- The character that two halves write, each by a code of its own.  The code of the first is
`high`, and the text begins with the escape of the second. -/
def pair? (high : Nat) : Text → Option Char
  | '\\' :: 'u' :: t => do
    let low ← code? 4 t
    if 0xD800 ≤ high ∧ high < 0xDC00 ∧ 0xDC00 ≤ low ∧ low < 0xE000 then
      char? (0x10000 + (high - 0xD800) * 0x400 + (low - 0xDC00))
    else none
  | _ => none

/-- Reads what stands behind a backslash: the character that it writes, and the number of characters
it takes. -/
def read? : Text → Option (Char × Nat)
  | 'x' :: t => (code? 2 t).bind fun code => (char? code).map (·, 3)
  | 'u' :: t =>
    (code? 4 t).bind fun code =>
      match char? code with
      | some c => some (c, 5)
      | none => (pair? code (t.drop 4)).map (·, 11)
  | 'U' :: t => (code? 8 t).bind fun code => (char? code).map (·, 9)
  | c :: _ => (simple? c).map (·, 1)
  | [] => none

end Escape

end Stencil.Yaml
