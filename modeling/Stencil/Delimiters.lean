import Stencil.Text.Blank

/-!
# Delimiters

A tag stands between an opening and a closing delimiter.  Any two texts will do as long as both
have at least one character and neither holds a blank or an equals sign: blanks separate the two
where a template sets them, and equals signs enclose them.  The type carries this condition, so the
scanner needs no check of its own and always moves forward.
-/

set_option autoImplicit false

namespace Stencil

/-- Whether a character may stand in a delimiter. -/
def isDelimiterChar (c : Char) : Bool :=
  !isBlank c && c != '='

/-- Whether a text may serve as a delimiter. -/
def isDelimiter (t : Text) : Bool :=
  !t.isEmpty && t.all isDelimiterChar

/-- An opening and a closing delimiter. -/
structure Delimiters where
  /-- The text that begins a tag. -/
  opening : Text
  /-- The text that ends a tag. -/
  closing : Text
  /-- The opening delimiter is neither empty nor broken by a blank or an equals sign. -/
  isDelimiter_opening : isDelimiter opening = true := by decide
  /-- The closing delimiter is neither empty nor broken by a blank or an equals sign. -/
  isDelimiter_closing : isDelimiter closing = true := by decide
deriving DecidableEq, Repr

namespace Delimiters

/-- The delimiters that are in force where nothing else is said. -/
def braces : Delimiters where
  opening := ['\x7b', '\x7b']
  closing := ['\x7d', '\x7d']

instance : Inhabited Delimiters := ⟨braces⟩

/-- The pair of two texts, if both may serve as delimiters. -/
def ofPair? (opening closing : Text) : Option Delimiters :=
  if h : isDelimiter opening = true ∧ isDelimiter closing = true then
    some ⟨opening, closing, h.1, h.2⟩
  else none

theorem ofPair?_eq_some_iff {opening closing : Text} {d : Delimiters} :
    ofPair? opening closing = some d ↔ d.opening = opening ∧ d.closing = closing := by
  obtain ⟨o, c, ho, hc⟩ := d
  unfold ofPair?
  split
  · simp [eq_comm]
  · simp only [reduceCtorEq, false_iff]
    rintro ⟨rfl, rfl⟩
    simp_all

theorem opening_ne_nil (d : Delimiters) : d.opening ≠ [] := by
  have := d.isDelimiter_opening
  intro h
  simp [h, isDelimiter] at this

theorem closing_ne_nil (d : Delimiters) : d.closing ≠ [] := by
  have := d.isDelimiter_closing
  intro h
  simp [h, isDelimiter] at this

/-- The pair that a template sets with the text between two equals signs. -/
def ofContent? (content : Text) : Option Delimiters :=
  match Text.words content with
  | [opening, closing] => ofPair? opening closing
  | _ => none

end Delimiters

end Stencil
