import Stencil.Text.Basic
import Stencil.Text.Printable

/-!
# Quoted literals

Messages and printed collections show a text as a quoted literal, which makes blank and invisible
characters visible and can be told apart from its surroundings.

* The quote is `'`, except for a text that holds `'` and no `"`.
* Inside, the quote in use and the backslash stand behind a backslash; line feed, carriage return
  and tab are written `\n`, `\r` and `\t`.
* A character that is not printable is written with its code point in hexadecimal: two digits
  after `\x`, four after `\u` or eight after `\U`, whichever is the shortest that holds it.

Byte strings follow the same rules behind a `b`, except that every byte outside the printable
ASCII range is escaped.
-/

set_option autoImplicit false

namespace Stencil.Text

/-- The last `width` digits of the hexadecimal numeral of `n`, in lower case. -/
def hexadecimal (width n : Nat) : Text :=
  let digits := Nat.toDigits 16 n
  List.replicate (width - digits.length) '0' ++ digits

/-- The quote that a literal of the text is written in. -/
def quoteFor (t : Text) : Char :=
  if '\'' ∈ t ∧ '"' ∉ t then '"' else '\''

/-- The escape of a character by its code point. -/
def escapeCode (n : Nat) : Text :=
  if n < 0x100 then '\\' :: 'x' :: hexadecimal 2 n
  else if n < 0x10000 then '\\' :: 'u' :: hexadecimal 4 n
  else '\\' :: 'U' :: hexadecimal 8 n

/-- One character inside a literal written in `quote`, where `shown` tells which characters stand
for themselves. -/
def quoteChar (shown : Char → Bool) (quote c : Char) : Text :=
  if c = quote ∨ c = '\\' then ['\\', c]
  else if c = '\n' then ['\\', 'n']
  else if c = '\r' then ['\\', 'r']
  else if c = '\t' then ['\\', 't']
  else if shown c then [c]
  else escapeCode c.toNat

/-- The quoted literal of a text. -/
def quoted (t : Text) : Text :=
  let quote := quoteFor t
  quote :: t.flatMap (quoteChar isPrintable quote) ++ [quote]

/-- The quoted literal of a byte string, whose bytes are given as the characters U+0000 to
U+00FF. -/
def quotedBytes (bytes : Text) : Text :=
  let quote := quoteFor bytes
  let shown (c : Char) := 0x20 ≤ c.toNat && c.toNat < 0x7F
  'b' :: quote :: bytes.flatMap (quoteChar shown quote) ++ [quote]

example : quoted ['i', 't', '\'', 's'] = ['"', 'i', 't', '\'', 's', '"'] := by decide

example : quotedBytes ['\'', '"', 'é'] = "b'\\'\"\\xe9'".toList := by decide

end Stencil.Text
