import Stencil.Value.Printing

/-!
# Escaping output

An output tag passes what it shows through an escaper, which is any function on texts, unless the
value is marked as safe.  `Escaper.html` replaces the seven characters that matter in the text and
the attributes of a markup document; `not_mem_html` says that none but the ampersand of the
replacements is left of them.
-/

set_option autoImplicit false

namespace Stencil

/-- What turns the text of a value into output. -/
abbrev Escaper := Text → Text

namespace Escaper

/-- The replacement of one character. -/
def htmlChar : Char → Text
  | '&' => "&amp;"
  | '<' => "&lt;"
  | '>' => "&gt;"
  | '"' => "&quot;"
  | '\'' => "&#x27;"
  | '`' => "&#x60;"
  | '=' => "&#x3D;"
  | c => [c]

/-- Replaces the characters that matter in markup. -/
def html : Escaper :=
  fun t => t.flatMap htmlChar

/-- Leaves everything as it is. -/
def plain : Escaper := id

/-- The characters other than the ampersand that matter in markup. -/
def markupChars : List Char :=
  ['<', '>', '"', '\'', '`', '=']

/-- The seven replacements. -/
def replacements : List Text :=
  ["&amp;", "&lt;", "&gt;", "&quot;", "&#x27;", "&#x60;", "&#x3D;"]

/-- A character is replaced, or it stays and does not matter in markup. -/
theorem htmlChar_cases (c : Char) :
    htmlChar c ∈ replacements ∨ (htmlChar c = [c] ∧ c ∉ markupChars) := by
  unfold htmlChar
  split
  case h_8 h1 h2 h3 h4 h5 h6 h7 =>
    refine .inr ⟨rfl, fun hc => ?_⟩
    simp only [markupChars, List.mem_cons, List.not_mem_nil, or_false] at hc
    rcases hc with h | h | h | h | h | h
    · exact h2 h
    · exact h3 h
    · exact h4 h
    · exact h5 h
    · exact h6 h
    · exact h7 h
  all_goals exact .inl (by simp [replacements])

theorem not_mem_htmlChar {c d : Char} (hd : d ∈ markupChars) : d ∉ htmlChar c := by
  have plain : (replacements.all fun t => markupChars.all fun d => !t.contains d) = true := by
    decide
  rcases htmlChar_cases c with h | ⟨h, hc⟩
  · simpa using List.all_eq_true.1 (List.all_eq_true.1 plain _ h) d hd
  · rw [h, List.mem_singleton]
    rintro rfl
    exact hc hd

/-- **Escaped text holds no character of markup.** -/
theorem not_mem_html {d : Char} {t : Text} (hd : d ∈ markupChars) : d ∉ html t := by
  simp only [html, List.mem_flatMap, not_exists, not_and]
  exact fun c _ => not_mem_htmlChar hd

/-- The output of a value: safe text as it stands, and the text of anything else escaped. -/
def value (escape : Escaper) : Value → Text
  | .safe t => t
  | v => escape v.outputText

end Escaper

end Stencil
