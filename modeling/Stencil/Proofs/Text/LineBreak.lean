import Stencil.Proofs.Text.Edge

/-!
# Line breaks with and without a carriage return

`Text.crlf` puts a carriage return in front of every line feed.  Whatever cuts a text into parts
cuts it there at the same places.

* A needle without line breaks is found where it was, because no occurrence of it reaches into a
  line break (`prefix_crlf_iff`, `splitAtFirst_crlf`, `stripPrefix?_crlf`).
* What is taken away at the ends of a text is a matter of a class of characters that has both
  characters of a line break or neither of them (`dropWhile_crlf`, `dropEndWhile_crlf`).
* The end of a line is one with either break (`dropLineEnd_crlf`, `isLineEnd_crlf`), as long as the
  text had no carriage return before: with a second one in front of it, a break ends a line no more.
-/

set_option autoImplicit false

namespace Stencil.Text

/-- A text with a carriage return in front of every line feed. -/
def crlf : Text → Text
  | [] => []
  | c :: t => if c = '\n' then '\r' :: '\n' :: crlf t else c :: crlf t

@[simp] theorem crlf_nil : crlf [] = [] := rfl

@[simp] theorem crlf_newline_cons (t : Text) : crlf ('\n' :: t) = '\r' :: '\n' :: crlf t := rfl

theorem crlf_cons_of_ne {c : Char} (h : c ≠ '\n') (t : Text) : crlf (c :: t) = c :: crlf t := by
  rw [crlf, if_neg h]

@[simp] theorem crlf_append (s t : Text) : crlf (s ++ t) = crlf s ++ crlf t := by
  induction s with
  | nil => rfl
  | cons c s ih =>
    rw [List.cons_append, crlf, crlf, ih]
    split <;> rfl

theorem crlf_eq_self {t : Text} (h : '\n' ∉ t) : crlf t = t := by
  induction t with
  | nil => rfl
  | cons c t ih =>
    obtain ⟨hc, ht⟩ := not_or.1 (mt List.mem_cons.2 h)
    rw [crlf_cons_of_ne (Ne.symm hc), ih ht]

@[simp] theorem crlf_eq_nil_iff {t : Text} : crlf t = [] ↔ t = [] := by
  cases t with
  | nil => simp
  | cons c t =>
    rw [crlf]
    split <;> simp

/-- The last character stays the last one. -/
@[simp] theorem getLast?_crlf (t : Text) : (crlf t).getLast? = t.getLast? := by
  induction t using List.reverseRecOn with
  | nil => rfl
  | append_singleton t c =>
    rw [crlf_append, crlf, crlf_nil]
    split
    · next h => rw [h, List.getLast?_concat, List.getLast?_append]; rfl
    · rw [List.getLast?_concat, List.getLast?_concat]

/-! ## Needles -/

/-- A text without line breaks, of either kind. -/
structure IsInline (t : Text) : Prop where
  /-- It has no line feed. -/
  newline : '\n' ∉ t
  /-- It has no carriage return. -/
  carriage : '\r' ∉ t

theorem IsInline.of_cons {c : Char} {t : Text} (h : IsInline (c :: t)) :
    c ≠ '\n' ∧ c ≠ '\r' ∧ IsInline t := by
  obtain ⟨hc, ht⟩ := not_or.1 (mt List.mem_cons.2 h.newline)
  obtain ⟨hc', ht'⟩ := not_or.1 (mt List.mem_cons.2 h.carriage)
  exact ⟨Ne.symm hc, Ne.symm hc', ht, ht'⟩

/-- A text that holds no blank has no line break. -/
theorem isInline_of_isBlank {t : Text} (h : ∀ c ∈ t, isBlank c = false) : IsInline t :=
  ⟨fun hmem => (nomatch h _ hmem), fun hmem => (nomatch h _ hmem)⟩

/-- What follows a beginning without line breaks follows it still. -/
theorem stripPrefix?_crlf {start : Text} (h : IsInline start) (t : Text) :
    stripPrefix? start (crlf t) = (stripPrefix? start t).map crlf := by
  induction start generalizing t with
  | nil => rfl
  | cons s start ih =>
    obtain ⟨hnewline, hcarriage, hstart⟩ := h.of_cons
    cases t with
    | nil => rfl
    | cons c t =>
      by_cases hc : c = '\n'
      · subst hc
        rw [crlf_newline_cons, stripPrefix?, stripPrefix?, if_neg hcarriage, if_neg hnewline]
        rfl
      · rw [crlf_cons_of_ne hc, stripPrefix?, stripPrefix?, ih hstart]
        split <;> rfl

theorem prefix_iff_stripPrefix? {start t : Text} :
    start <+: t ↔ (stripPrefix? start t).isSome = true := by
  rw [Option.isSome_iff_exists]
  exact exists_congr fun rest => by rw [stripPrefix?_eq_some_iff, eq_comm]

/-- A needle without line breaks stands where it stood. -/
theorem prefix_crlf_iff {needle : Text} (h : IsInline needle) {t : Text} :
    needle <+: crlf t ↔ needle <+: t := by
  rw [prefix_iff_stripPrefix?, prefix_iff_stripPrefix?, stripPrefix?_crlf h, Option.isSome_map]

/-- What begins with a text without line breaks began with it before. -/
theorem exists_append_of_crlf (start : Text) (h : IsInline start) {t rest : Text}
    (heq : crlf t = start ++ rest) : ∃ rest, t = start ++ rest := by
  obtain ⟨rest, hrest⟩ := (prefix_crlf_iff h).1 ⟨rest, heq.symm⟩
  exact ⟨rest, hrest.symm⟩

/-- A needle without line breaks is found where it was. -/
theorem splitAtFirst_crlf {needle : Text} (h : IsInline needle) (hne : needle ≠ []) (t : Text) :
    splitAtFirst needle (crlf t) = (splitAtFirst needle t).map (Prod.map crlf crlf) := by
  obtain ⟨a, more, rfl⟩ := List.exists_cons_of_ne_nil hne
  obtain ⟨hnewline, hcarriage, -⟩ := h.of_cons
  induction t with
  | nil => rfl
  | cons c t ih =>
    by_cases hc : c = '\n'
    · subst hc
      have hskip : ∀ {b : Char} {u : Text}, a ≠ b → ¬a :: more <+: b :: u := fun hab hstart =>
        hab (List.cons_prefix_cons.1 hstart).1
      rw [crlf_newline_cons, splitAtFirst, if_neg (hskip hcarriage), splitAtFirst,
        if_neg (hskip hnewline), ih, splitAtFirst, if_neg (hskip hnewline)]
      cases splitAtFirst (a :: more) t <;> rfl
    · have hhere := @prefix_crlf_iff _ h (c :: t)
      rw [crlf_cons_of_ne hc] at hhere ⊢
      rw [splitAtFirst, splitAtFirst, ih]
      by_cases hstart : a :: more <+: c :: t
      · simp [hstart, hhere.2 hstart, crlf_cons_of_ne hc]
      · rw [if_neg hstart, if_neg fun h' => hstart (hhere.1 h')]
        cases splitAtFirst (a :: more) t with
        | none => rfl
        | some found => simp [crlf_cons_of_ne hc]

/-! ## The ends of a text -/

section Ends

variable {p : Char → Bool}

theorem dropWhile_crlf (hp : p '\r' = p '\n') (t : Text) :
    (crlf t).dropWhile p = crlf (t.dropWhile p) := by
  induction t with
  | nil => rfl
  | cons c t ih =>
    by_cases hc : c = '\n'
    · subst hc
      cases hn : p '\n' with
      | true => simp [hp, hn, ih]
      | false => simp [hp, hn]
    · rw [crlf_cons_of_ne hc, List.dropWhile_cons, List.dropWhile_cons, ih]
      split
      · rfl
      · rw [crlf_cons_of_ne hc]

theorem dropEndWhile_crlf (hp : p '\r' = p '\n') (t : Text) :
    dropEndWhile p (crlf t) = crlf (dropEndWhile p t) := by
  induction t using List.reverseRecOn with
  | nil => rfl
  | append_singleton t c ih =>
    have hlast : dropEndWhile p (crlf [c]) = crlf (dropEndWhile p [c]) := by
      by_cases hc : c = '\n'
      · subst hc
        cases hn : p '\n' <;> simp [dropEndWhile, hp, hn]
      · cases hpc : p c <;> simp [dropEndWhile, crlf_cons_of_ne hc, hpc]
    rw [crlf_append, dropEndWhile_append, dropEndWhile_append, hlast, ih]
    by_cases hnil : dropEndWhile p [c] = []
    · rw [if_pos hnil, if_pos (crlf_eq_nil_iff.2 hnil)]
    · rw [if_neg hnil, if_neg (mt crlf_eq_nil_iff.1 hnil), crlf_append]

theorem takeEndWhile_crlf (hr : p '\r' = false) (hn : p '\n' = false) (t : Text) :
    takeEndWhile p (crlf t) = takeEndWhile p t := by
  have hinline : '\n' ∉ takeEndWhile p t := fun h => by
    rw [mem_takeEndWhile h] at hn
    exact nomatch hn
  have h := dropEndWhile_append_takeEndWhile p (crlf t)
  have h' := congrArg crlf (dropEndWhile_append_takeEndWhile p t)
  rw [crlf_append, crlf_eq_self hinline, ← dropEndWhile_crlf (hr.trans hn.symm)] at h'
  exact List.append_cancel_left (h.trans h'.symm)

end Ends

/-! ## The ends of lines -/

theorem carriage_not_mem_dropWhile {p : Char → Bool} {t : Text} (h : '\r' ∉ t) :
    '\r' ∉ t.dropWhile p := fun hmem => h ((List.dropWhile_sublist p).subset hmem)

/-- Behind its indentation, a text without carriage returns is at its end, at a line feed or at
another character of its first line. -/
theorem dropWhile_isIndentChar_cases {t : Text} (h : '\r' ∉ t) :
    t.dropWhile isIndentChar = [] ∨ (∃ rest, t.dropWhile isIndentChar = '\n' :: rest) ∨
      ∃ c rest, t.dropWhile isIndentChar = c :: rest ∧ c ≠ '\n' ∧ c ≠ '\r' := by
  have hrest := @carriage_not_mem_dropWhile isIndentChar t h
  cases hdrop : t.dropWhile isIndentChar with
  | nil => exact .inl rfl
  | cons c rest =>
    by_cases hc : c = '\n'
    · exact .inr (.inl ⟨rest, by rw [hc]⟩)
    · refine .inr (.inr ⟨c, rest, rfl, hc, fun heq => hrest ?_⟩)
      rw [hdrop, heq]
      exact List.mem_cons_self

/-- The end of a line is taken away with either break. -/
theorem dropLineEnd_crlf {t : Text} (h : '\r' ∉ t) :
    dropLineEnd (crlf t) = crlf (dropLineEnd t) := by
  rw [dropLineEnd, dropLineEnd, dropWhile_crlf (by decide)]
  obtain hdrop | ⟨rest, hdrop⟩ | ⟨c, rest, hdrop, hc, hcarriage⟩ := dropWhile_isIndentChar_cases h
  · rw [hdrop]
    rfl
  · rw [hdrop]
    rfl
  · rw [hdrop, crlf_cons_of_ne hc]
    simp [hc, hcarriage, crlf_cons_of_ne hc]

/-- The end of a line is one with either break. -/
theorem isLineEnd_crlf {t : Text} (h : '\r' ∉ t) : isLineEnd (crlf t) = isLineEnd t := by
  rw [isLineEnd, isLineEnd, dropWhile_crlf (by decide)]
  obtain hdrop | ⟨rest, hdrop⟩ | ⟨c, rest, hdrop, hc, hcarriage⟩ := dropWhile_isIndentChar_cases h
  · rw [hdrop]
    rfl
  · rw [hdrop]
    rfl
  · rw [hdrop, crlf_cons_of_ne hc]
    simp [hc, hcarriage]

/-- The indentation at the end of a text starts a line behind either break. -/
theorem indentAtEnd?_crlf (t : Text) : indentAtEnd? (crlf t) = indentAtEnd? t := by
  rw [indentAtEnd?, indentAtEnd?, dropEndWhile_crlf (by decide), getLast?_crlf,
    takeEndWhile_crlf (by decide) (by decide)]

end Stencil.Text
