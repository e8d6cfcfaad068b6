import Mathlib.Data.List.DropRight
import Mathlib.Data.List.TakeWhile
import Stencil.Node.Layout

/-!
# The edges of a text

Settling the white space of a template takes something away at the two ends of a text, in up to four
steps of which each works on what the ones before it have left.  Two facts make the order of the
steps irrelevant:

* `dropEndWhile_drop` — taking characters away at the end commutes with taking them away at the
  beginning, however many that are;
* `dropWhile_dropEndWhile` — the same for two classes of characters.

So what is left is `Text.cut front back t`, the stretch between two marks that are both read off the
text as it was.

The second part is about lines.  `EndsInIndent` and `StartsWithLineEnd` say in terms of the text
alone what it means that nothing but spaces and tabs stands between a place and the beginning or the
end of its line; `indentAtEnd?` and `isLineEnd` decide it.

The last part is about texts from which nothing is taken away, because they neither begin nor end
with a blank (`IsTrim`).
-/

set_option autoImplicit false

namespace Stencil.Text

/-! ## Taking away at both ends -/

section Cut

variable {p q : Char → Bool}

theorem dropEndWhile_eq_rdropWhile (t : Text) : dropEndWhile p t = t.rdropWhile p := rfl

theorem mem_takeEndWhile {t : Text} {c : Char} (h : c ∈ takeEndWhile p t) : p c = true :=
  List.mem_rtakeWhile_imp h

/-- The stretch of a text that leaves out some characters at the beginning and some at the end. -/
def cut (front back : Nat) (t : Text) : Text :=
  (t.take (t.length - back)).drop front

theorem dropWhile_eq_drop (t : Text) : t.dropWhile p = t.drop (t.takeWhile p).length := by
  have h := @List.drop_left _ (t.takeWhile p) (t.dropWhile p)
  rw [List.takeWhile_append_dropWhile] at h
  exact h.symm

theorem dropEndWhile_eq_take (t : Text) :
    dropEndWhile p t = t.take (t.length - (takeEndWhile p t).length) := by
  have h := dropEndWhile_append_takeEndWhile p t
  have hlen := congrArg List.length h
  rw [List.length_append] at hlen
  have hcount : t.length - (takeEndWhile p t).length = (dropEndWhile p t).length := by omega
  have htake := @List.take_left _ (dropEndWhile p t) (takeEndWhile p t)
  rw [h] at htake
  rw [hcount, htake]

theorem dropEndWhile_append (s t : Text) :
    dropEndWhile p (s ++ t) =
      if dropEndWhile p t = [] then dropEndWhile p s else s ++ dropEndWhile p t := by
  rw [dropEndWhile, List.reverse_append, List.dropWhile_append]
  by_cases h : t.reverse.dropWhile p = []
  · simp [dropEndWhile, h]
  · simp [dropEndWhile, h]

theorem takeEndWhile_append (s t : Text) :
    takeEndWhile p (s ++ t) =
      if dropEndWhile p t = [] then takeEndWhile p s ++ t else takeEndWhile p t := by
  have hs := dropEndWhile_append_takeEndWhile p (s ++ t)
  rw [dropEndWhile_append] at hs
  split
  · next h =>
    rw [if_pos h] at hs
    have : dropEndWhile p s ++ takeEndWhile p (s ++ t) =
        dropEndWhile p s ++ (takeEndWhile p s ++ t) := by
      rw [hs, ← List.append_assoc, dropEndWhile_append_takeEndWhile]
    exact List.append_cancel_left this
  · next h =>
    rw [if_neg h] at hs
    have : (s ++ dropEndWhile p t) ++ takeEndWhile p (s ++ t) =
        (s ++ dropEndWhile p t) ++ takeEndWhile p t := by
      rw [hs, List.append_assoc, dropEndWhile_append_takeEndWhile]
    exact List.append_cancel_left this

/-- Taking characters away at the end commutes with taking them away at the beginning. -/
theorem dropEndWhile_drop (t : Text) (n : Nat) :
    dropEndWhile p (t.drop n) = (dropEndWhile p t).drop n := by
  conv_rhs => rw [← List.take_append_drop n t]
  rw [dropEndWhile_append]
  split
  · next h =>
    rw [h, eq_comm, List.drop_eq_nil_iff]
    exact ((List.rdropWhile_prefix p (t.take n)).length_le).trans (List.length_take_le n t)
  · next h =>
    have hlong : n ≤ t.length := by
      by_contra hn
      exact h (by rw [List.drop_eq_nil_of_le (by omega), dropEndWhile_nil])
    have hleft : (t.take n).length = n := by rw [List.length_take]; omega
    have hdrop := @List.drop_left _ (t.take n) (dropEndWhile p (t.drop n))
    rw [hleft] at hdrop
    exact hdrop.symm

/-- Both ends can be trimmed in either order. -/
theorem dropWhile_dropEndWhile (t : Text) :
    (dropEndWhile q t).dropWhile p = (dropEndWhile q t).drop (t.takeWhile p).length := by
  rw [dropWhile_eq_drop, dropEndWhile_eq_take, ← List.take_takeWhile, List.length_take]
  rcases Nat.le_total (t.takeWhile p).length
      (t.length - (takeEndWhile q t).length) with hle | hle
  · rw [Nat.min_eq_right hle]
  · rw [Nat.min_eq_left hle, List.drop_eq_nil_of_le (by simp),
      List.drop_eq_nil_of_le (by simp; omega)]

/-- Trimming does not notice that some of what it takes away is gone already. -/
theorem dropWhile_drop_of_all {t : Text} {n : Nat} (h : ∀ c ∈ t.take n, p c = true) :
    (t.drop n).dropWhile p = t.dropWhile p := by
  conv_rhs => rw [← List.take_append_drop n t]
  rw [List.dropWhile_append_of_pos h]

/-- Trimming a larger class of characters at the end takes away what a smaller one takes away. -/
theorem dropEndWhile_dropEndWhile (h : ∀ c, q c = true → p c = true) (t : Text) :
    dropEndWhile p (dropEndWhile q t) = dropEndWhile p t := by
  conv_rhs => rw [← dropEndWhile_append_takeEndWhile q t]
  rw [dropEndWhile_append, if_pos]
  rw [dropEndWhile_eq_rdropWhile, List.rdropWhile_eq_nil_iff]
  exact fun c hc => h c (mem_takeEndWhile hc)

end Cut

/-! ## The line around a place -/

/-- The text before a place ends in `indent`, which consists of spaces and tabs, and `indent` starts
a line. -/
def EndsInIndent (t indent : Text) : Prop :=
  ∃ lines, t = lines ++ indent ∧ (lines = [] ∨ lines.getLast? = some '\n') ∧
    ∀ c ∈ indent, c = ' ' ∨ c = '\t'

/-- The text behind a place has nothing but spaces and tabs before its first line break, or before
its end. -/
def StartsWithLineEnd (t : Text) : Prop :=
  ∃ indent rest, t = indent ++ rest ∧ (∀ c ∈ indent, c = ' ' ∨ c = '\t') ∧
    (rest = [] ∨ ['\n'] <+: rest ∨ ['\r', '\n'] <+: rest)

/-- The spaces and tabs at the end of a text, if they start a line. -/
def indentAtEnd? (t : Text) : Option Text :=
  match (dropEndWhile isIndentChar t).getLast? with
  | none | some '\n' => some (takeEndWhile isIndentChar t)
  | some _ => none

/-- Whether a text starts with the end of a line. -/
def isLineEnd (t : Text) : Bool :=
  match t.dropWhile isIndentChar with
  | [] | '\n' :: _ | '\r' :: '\n' :: _ => true
  | _ => false

theorem isIndentChar_iff {c : Char} : isIndentChar c = true ↔ c = ' ' ∨ c = '\t' := by
  simp [isIndentChar]

theorem isBlank_of_isIndentChar {c : Char} (h : isIndentChar c = true) : isBlank c = true := by
  rcases isIndentChar_iff.1 h with rfl | rfl <;> decide

theorem isIndentChar_eq_false {c : Char} (h : isBlank c = false) : isIndentChar c = false := by
  cases hc : isIndentChar c with
  | false => rfl
  | true => rw [isBlank_of_isIndentChar hc] at h; exact absurd h (by decide)

/-- The indentation at the end of a text is all of the spaces and tabs there. -/
theorem takeEndWhile_of_endsInIndent {t indent : Text} (h : EndsInIndent t indent) :
    takeEndWhile isIndentChar t = indent ∧ dropEndWhile isIndentChar t ++ indent = t := by
  obtain ⟨lines, rfl, hlines, hindent⟩ := h
  have hall : dropEndWhile isIndentChar indent = [] :=
    (List.rdropWhile_eq_nil_iff).2 fun c hc => isIndentChar_iff.2 (hindent c hc)
  have hstop : dropEndWhile isIndentChar lines = lines := by
    refine List.rdropWhile_eq_self_iff.2 fun hne => ?_
    rcases hlines with hnil | hlast
    · exact absurd hnil hne
    · rw [List.getLast?_eq_some_getLast hne, Option.some_inj] at hlast
      rw [hlast]
      decide
  rw [takeEndWhile_append, dropEndWhile_append, if_pos hall, if_pos hall, hstop]
  refine ⟨?_, rfl⟩
  have hnone := dropEndWhile_append_takeEndWhile isIndentChar lines
  rw [hstop] at hnone
  rw [List.append_right_eq_self.1 hnone, List.nil_append]

theorem indentAtEnd?_eq_some_iff {t indent : Text} :
    indentAtEnd? t = some indent ↔ EndsInIndent t indent := by
  have hcut := dropEndWhile_append_takeEndWhile isIndentChar t
  constructor
  · intro h
    have hstart : (dropEndWhile isIndentChar t).getLast? = none ∨
        (dropEndWhile isIndentChar t).getLast? = some '\n' := by
      rw [indentAtEnd?] at h
      split at h
      · next hlast => exact .inl hlast
      · next hlast => exact .inr hlast
      · exact absurd h (by simp)
    have hindent : takeEndWhile isIndentChar t = indent := by
      rw [indentAtEnd?] at h
      rcases hstart with hlast | hlast <;> rw [hlast] at h <;> exact Option.some.inj h
    refine ⟨dropEndWhile isIndentChar t, ?_, ?_, fun c hc => ?_⟩
    · rw [← hindent, hcut]
    · exact hstart.imp_left List.getLast?_eq_none_iff.1
    · exact isIndentChar_iff.1 (mem_takeEndWhile (hindent ▸ hc))
  · intro h
    obtain ⟨htake, happ⟩ := takeEndWhile_of_endsInIndent h
    obtain ⟨lines, rfl, hlines, -⟩ := h
    rw [List.append_cancel_right_eq] at happ
    rw [indentAtEnd?, htake, happ]
    rcases hlines with rfl | hlast
    · rfl
    · rw [hlast]
      rfl

theorem isLineEnd_iff {t : Text} : isLineEnd t = true ↔ StartsWithLineEnd t := by
  constructor
  · intro h
    refine ⟨t.takeWhile isIndentChar, t.dropWhile isIndentChar,
      List.takeWhile_append_dropWhile.symm,
      fun c hc => isIndentChar_iff.1 (List.mem_takeWhile_imp hc), ?_⟩
    rw [isLineEnd] at h
    split at h
    · next hdrop => exact .inl hdrop
    · next rest hdrop => exact .inr (.inl ⟨rest, hdrop.symm⟩)
    · next rest hdrop => exact .inr (.inr ⟨rest, hdrop.symm⟩)
    · exact absurd h (by decide)
  · rintro ⟨indent, rest, rfl, hindent, hrest⟩
    rw [isLineEnd, List.dropWhile_append_of_pos fun c hc => isIndentChar_iff.2 (hindent c hc)]
    rcases hrest with rfl | ⟨rest, rfl⟩ | ⟨rest, rfl⟩ <;> rfl

/-- Spaces and tabs behind an indentation belong to it. -/
theorem indentAtEnd?_append_of_all {run : Text} (h : dropEndWhile isIndentChar run = [])
    (t : Text) : indentAtEnd? (t ++ run) = (indentAtEnd? t).map (· ++ run) := by
  rw [indentAtEnd?, indentAtEnd?, dropEndWhile_append, if_pos h, takeEndWhile_append, if_pos h]
  split <;> rfl

/-- A text with anything but spaces and tabs decides by itself which indentation it ends in. -/
theorem indentAtEnd?_append_of_ne_nil {run : Text} (h : dropEndWhile isIndentChar run ≠ [])
    (t : Text) : indentAtEnd? (t ++ run) = indentAtEnd? run := by
  rw [indentAtEnd?, indentAtEnd?, dropEndWhile_append, if_neg h, takeEndWhile_append, if_neg h,
    List.getLast?_append_of_ne_nil _ h]

/-- A text that ends in a character other than a blank does not end in an indentation. -/
theorem indentAtEnd?_append_singleton {c : Char} (h : isBlank c = false) (t : Text) :
    indentAtEnd? (t ++ [c]) = none := by
  have hdrop : dropEndWhile isIndentChar (t ++ [c]) = t ++ [c] :=
    List.rdropWhile_concat_neg _ _ _ (by rw [isIndentChar_eq_false h]; decide)
  rw [indentAtEnd?, hdrop, List.getLast?_append, List.getLast?_singleton]
  split
  · next hlast => simp at hlast
  · next hlast =>
    obtain rfl : c = '\n' := by simpa using hlast
    exact absurd h (by decide)
  · rfl

/-! ## Texts with nothing to trim -/

/-- A text is *trim* if it begins and ends with a character other than a blank. -/
structure IsTrim (t : Text) : Prop where
  /-- The first character is no blank. -/
  exists_cons : ∃ c rest, t = c :: rest ∧ isBlank c = false
  /-- The last character is no blank. -/
  exists_concat : ∃ front c, t = front ++ [c] ∧ isBlank c = false

namespace IsTrim

theorem ne_nil {t : Text} (h : IsTrim t) : t ≠ [] := by
  obtain ⟨c, rest, rfl, -⟩ := h.exists_cons
  exact List.cons_ne_nil c rest

theorem append {s t : Text} (hs : IsTrim s) (ht : IsTrim t) (between : Text) :
    IsTrim (s ++ (between ++ t)) := by
  obtain ⟨c, rest, rfl, hc⟩ := hs.exists_cons
  obtain ⟨front, d, rfl, hd⟩ := ht.exists_concat
  refine ⟨⟨c, rest ++ (between ++ (front ++ [d])), rfl, hc⟩,
    ⟨c :: rest ++ (between ++ front), d, ?_, hd⟩⟩
  simp only [List.append_assoc]

theorem dropWhile_eq {p : Char → Bool} (hp : ∀ c, p c = true → isBlank c = true) {t : Text}
    (h : IsTrim t) : t.dropWhile p = t := by
  obtain ⟨c, rest, rfl, hc⟩ := h.exists_cons
  have hstop : ¬p c = true := fun hpc => absurd (hp c hpc) (by rw [hc]; decide)
  exact List.dropWhile_cons_of_neg hstop

theorem dropEndWhile_eq {p : Char → Bool} (hp : ∀ c, p c = true → isBlank c = true) {t : Text}
    (h : IsTrim t) : dropEndWhile p t = t := by
  obtain ⟨front, c, rfl, hc⟩ := h.exists_concat
  have hstop : ¬p c = true := fun hpc => absurd (hp c hpc) (by rw [hc]; decide)
  exact List.rdropWhile_concat_neg p front c hstop

theorem dropLineEnd_eq {t : Text} (h : IsTrim t) : dropLineEnd t = t := by
  have hdrop := h.dropWhile_eq fun _ => isBlank_of_isIndentChar
  obtain ⟨c, rest, rfl, hc⟩ := h.exists_cons
  rw [dropLineEnd, hdrop]
  split
  · next heq => obtain ⟨rfl, -⟩ := List.cons.inj heq; exact absurd hc (by decide)
  · next heq => obtain ⟨rfl, -⟩ := List.cons.inj heq; exact absurd hc (by decide)
  · rfl

theorem strip_eq {t : Text} (h : IsTrim t) : strip t = t := by
  rw [strip, h.dropWhile_eq fun _ => id, h.dropEndWhile_eq fun _ => id]

end IsTrim

/-- Stripping takes a space away at the beginning. -/
theorem strip_space_cons (t : Text) : strip (' ' :: t) = strip t := by
  rw [strip, List.dropWhile_cons_of_pos (by decide), strip]

/-- Stripping takes a space away at the end. -/
theorem strip_concat_space (t : Text) : strip (t ++ [' ']) = strip t := by
  rw [strip, List.dropWhile_append]
  split
  · next h =>
    rw [strip, List.isEmpty_iff.1 h]
    rfl
  · rw [dropEndWhile_append, if_pos (by decide : dropEndWhile isBlank [' '] = []), strip]

end Stencil.Text
