import Stencil.Text.Basic

/-!
# Lines and indentation

The output of an indented partial is indented line by line.  A line ends after any of the ten
line-breaking characters, or after the pair `\r\n`, which is one break; the last line of a text
need not end in a break.

Files are read with their carriage returns replaced (`unifyLineBreaks`).

`flatten_lines` says that the lines make up the text again.
-/

set_option autoImplicit false

namespace Stencil.Text

/-- Whether a character ends a line. -/
def isLineBreak (c : Char) : Bool :=
  (0x0A ≤ c.toNat && c.toNat ≤ 0x0D) || (0x1C ≤ c.toNat && c.toNat ≤ 0x1E) ||
    c.toNat == 0x85 || c.toNat == 0x2028 || c.toNat == 0x2029

/-- Replaces every line break that involves a carriage return by a line feed. -/
def unifyLineBreaks : Text → Text
  | '\r' :: '\n' :: t => '\n' :: unifyLineBreaks t
  | c :: t => (if c = '\r' then '\n' else c) :: unifyLineBreaks t
  | [] => []

/-- Puts a character in front of the first line. -/
def consFirst (c : Char) : List Text → List Text
  | [] => [[c]]
  | line :: lines => (c :: line) :: lines

/-- The lines of a text, each with the break that ends it. -/
def lines : Text → List Text
  | [] => []
  | '\r' :: '\n' :: t => ['\r', '\n'] :: lines t
  | c :: t => if isLineBreak c then [c] :: lines t else consFirst c (lines t)

@[simp] theorem flatten_consFirst (c : Char) (ls : List Text) :
    (consFirst c ls).flatten = c :: ls.flatten := by
  cases ls <;> rfl

/-- The lines of a text make up the text. -/
theorem flatten_lines (t : Text) : (lines t).flatten = t := by
  fun_induction lines t <;> simp_all

/-- Puts `indent` in front of every line. -/
def indentLines (indent t : Text) : Text :=
  ((lines t).map (indent ++ ·)).flatten

@[simp] theorem indentLines_nil_right (indent : Text) : indentLines indent [] = [] := rfl

@[simp] theorem indentLines_nil_left (t : Text) : indentLines [] t = t := by
  simp [indentLines, flatten_lines]

end Stencil.Text
