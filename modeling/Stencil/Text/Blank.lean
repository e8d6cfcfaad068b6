import Stencil.Text.Basic

/-!
# Blank characters

One class of blank characters serves the whole library: it separates arguments, it is stripped
from the inside of a tag, it may not occur in a delimiter or a helper name, and a `~` mark removes
it from the text around a tag.  It is the Unicode white space together with the four information
separators U+001C to U+001F; the zero-width space U+200B is not in it.

`isBlank_of_isWhitespace` says that the class extends the white space of the core library.
-/

set_option autoImplicit false

namespace Stencil

/-- The ranges of code points that count as blank. -/
def blankRanges : List (Nat × Nat) :=
  [(0x09, 0x0D), (0x1C, 0x20), (0x85, 0x85), (0xA0, 0xA0), (0x1680, 0x1680), (0x2000, 0x200A),
    (0x2028, 0x2029), (0x202F, 0x202F), (0x205F, 0x205F), (0x3000, 0x3000)]

/-- Whether a character is blank. -/
def isBlank (c : Char) : Bool :=
  blankRanges.any fun (low, high) => low ≤ c.toNat && c.toNat ≤ high

theorem isBlank_of_isWhitespace {c : Char} (h : c.isWhitespace = true) : isBlank c = true := by
  simp only [Char.isWhitespace, Bool.or_eq_true, decide_eq_true_eq] at h
  rcases h with ((h | h) | h) | h <;> subst h <;> decide

namespace Text

/-- Removes blank characters at both ends. -/
def strip (t : Text) : Text :=
  dropEndWhile isBlank (t.dropWhile isBlank)

@[simp] theorem strip_nil : strip [] = [] := rfl

/-- The maximal runs of characters that are not blank. -/
def words (t : Text) : List Text :=
  go [] t
where
  /-- Continues with `run` as the characters of the current run, the latest first. -/
  go (run : Text) : Text → List Text
    | [] => if run.isEmpty then [] else [run.reverse]
    | c :: t =>
      if isBlank c then
        if run.isEmpty then go [] t else run.reverse :: go [] t
      else go (c :: run) t

example : words "  <%\t%> ".toList = ["<%".toList, "%>".toList] := by decide

end Text

end Stencil
