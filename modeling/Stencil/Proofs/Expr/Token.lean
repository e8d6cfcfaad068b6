import Mathlib.Data.List.TakeWhile
import Stencil.Expr.Token
import Stencil.Proofs.Text.Edge

/-!
# Tokens in front of other text

A token is read from the beginning of whatever is left of a parameter list, so its end is a matter
of what follows it.  Here it is shown that this does no harm where parameters are separated in the
usual way: if a text is read as one token when it stands alone, and it is followed by a blank, by a
parenthesis or by nothing (`Lexeme.endsNumber`), then it is read as that token and the reading stops
where the text does.

* `Lexeme.read?_append` — the general fact.  The reader of each class of tokens has its own lemma.
  A bracketed group is the delicate case: it may hold anything, and whether it is entered at all
  depends on a bracket further on.
* `Lexeme.read?_key` — a key with its equals sign is read in front of anything but another equals
  sign.
* `Lexeme.isTrim_of_read?` — a token neither begins nor ends with a blank.
-/

set_option autoImplicit false

namespace Stencil

/-! ## Classes of characters -/

/-- No word character is a blank: the ranges of the two tables are apart. -/
theorem wordRanges_disjoint_blankRanges : (wordRanges.all fun word => blankRanges.all fun blank =>
    decide (word.2 < blank.1) || decide (blank.2 < word.1)) = true := by
  decide +kernel

/-- No set of decimal digits reaches into a range of blanks. -/
theorem digitZeros_disjoint_blankRanges : (digitZeros.all fun low => blankRanges.all fun blank =>
    decide (low + 9 < blank.1) || decide (blank.2 < low)) = true := by
  decide +kernel

theorem isWordChar_of_isBlank {c : Char} (h : isBlank c = true) : isWordChar c = false := by
  obtain ⟨blank, hblank, hc⟩ := List.any_eq_true.1 h
  rw [isWordChar, List.any_eq_false]
  intro word hword hc'
  have hapart := List.all_eq_true.1 (List.all_eq_true.1 wordRanges_disjoint_blankRanges word hword)
    blank hblank
  simp only [Bool.and_eq_true, Bool.or_eq_true, decide_eq_true_eq] at hc hc' hapart
  omega

theorem isDecimalDigit_of_isBlank {c : Char} (h : isBlank c = true) : isDecimalDigit c = false := by
  obtain ⟨blank, hblank, hc⟩ := List.any_eq_true.1 h
  rw [isDecimalDigit, digitValue?, Option.isSome_map, Option.isSome_eq_false_iff,
    Option.isNone_iff_eq_none, List.find?_eq_none]
  intro low hlow hc'
  have hapart := List.all_eq_true.1 (List.all_eq_true.1 digitZeros_disjoint_blankRanges low hlow)
    blank hblank
  simp only [Bool.and_eq_true, Bool.or_eq_true, decide_eq_true_eq] at hc hc' hapart
  omega

namespace Lexeme

variable {rest : Text}

/-- What a token may be followed by begins with a blank or with a parenthesis. -/
theorem endsNumber_cons {c : Char} :
    endsNumber (c :: rest) = true ↔ isBlank c = true ∨ c = '(' ∨ c = ')' := by
  simp [endsNumber, or_assoc]

theorem isKeyChar_of_endsNumber {c : Char} (h : endsNumber (c :: rest) = true) :
    isKeyChar c = false := by
  rcases endsNumber_cons.1 h with hc | rfl | rfl
  · rw [isKeyChar, isWordChar_of_isBlank hc, Bool.false_or, Bool.or_eq_false_iff,
      beq_eq_false_iff_ne, beq_eq_false_iff_ne]
    constructor <;> rintro rfl <;> exact absurd hc (by decide)
  · decide +kernel
  · decide +kernel

theorem isDecimalDigit_of_endsNumber {c : Char} (h : endsNumber (c :: rest) = true) :
    isDecimalDigit c = false := by
  rcases endsNumber_cons.1 h with hc | rfl | rfl
  · exact isDecimalDigit_of_isBlank hc
  · decide
  · decide

theorem isWordPart_of_endsNumber {c : Char} (h : endsNumber (c :: rest) = true) :
    isWordPart c = false := by
  rcases endsNumber_cons.1 h with hc | rfl | rfl
  · rw [isWordPart, hc, Bool.true_or, Bool.not_true]
  · decide
  · decide

/-- A character at which tokens end differs from any character at which they do not. -/
theorem ne_of_endsNumber {c d : Char} (h : endsNumber (c :: rest) = true)
    (hd : endsNumber [d] = false) : c ≠ d := by
  rintro rfl
  exact absurd (endsNumber_cons.2 (endsNumber_cons.1 h)) (by rw [hd]; decide)

/-! ## Each class of tokens -/

/-- What goes on up to a character that cannot go on stops where a text does that is followed by
the end of a token. -/
theorem takeWhile_append_of_endsNumber {p : Char → Bool} (hrest : endsNumber rest = true)
    (hp : ∀ c r, endsNumber (c :: r) = true → p c = false) (t : Text) :
    (t ++ rest).takeWhile p = t.takeWhile p ∧ (t ++ rest).dropWhile p = t.dropWhile p ++ rest := by
  induction t with
  | nil =>
    cases rest with
    | nil => exact ⟨rfl, rfl⟩
    | cons c r => simp [hp c r hrest]
  | cons c t ih =>
    by_cases hc : p c = true
    · simp [hc, ih.1, ih.2]
    · simp [hc]

theorem readQuotedRest_cons {quote c : Char} (hc : c ≠ '\\') (t : Text) :
    readQuotedRest quote (c :: t) =
      if c = quote then some ([c], t)
      else (readQuotedRest quote t).map fun r => (c :: r.1, r.2) := by
  rw [readQuotedRest]
  · simp only [hc, if_false]
  · rintro d u rfl
    exact fun _ => hc rfl

theorem readQuotedRest_append {quote : Char} (hquote : quote ≠ '\\') {t raw after : Text}
    (h : readQuotedRest quote t = some (raw, after)) (rest : Text) :
    readQuotedRest quote (t ++ rest) = some (raw, after ++ rest) := by
  fun_induction readQuotedRest quote t generalizing raw with
  | case1 => exact absurd h (by simp)
  | case2 => exact absurd h (by simp)
  | case3 c t hc ih =>
    obtain ⟨⟨r, s⟩, hr, heq⟩ := Option.map_eq_some_iff.1 h
    obtain ⟨rfl, rfl⟩ := Prod.mk.inj heq
    simp [readQuotedRest, hc, ih hr]
  | case4 t =>
    obtain ⟨rfl, rfl⟩ := Prod.mk.inj (Option.some.inj h)
    rw [List.cons_append, readQuotedRest_cons hquote, if_pos rfl]
  | case5 => exact absurd h (by simp)
  | case6 c t _ hstop hslash ih =>
    obtain ⟨⟨r, s⟩, hr, heq⟩ := Option.map_eq_some_iff.1 h
    obtain ⟨rfl, rfl⟩ := Prod.mk.inj heq
    rw [List.cons_append, readQuotedRest_cons hslash, if_neg hstop, ih hr]
    rfl

theorem readQuoted?_append {t raw after : Text} (h : readQuoted? t = some (raw, after))
    (rest : Text) : readQuoted? (t ++ rest) = some (raw, after ++ rest) := by
  cases t with
  | nil => exact absurd h (by simp [readQuoted?])
  | cons c t =>
    rw [readQuoted?] at h
    split at h
    · next hquote =>
      obtain ⟨⟨r, s⟩, hr, heq⟩ := Option.map_eq_some_iff.1 h
      obtain ⟨rfl, rfl⟩ := Prod.mk.inj heq
      rw [List.cons_append, readQuoted?, if_pos hquote,
        readQuotedRest_append (by rcases hquote with rfl | rfl <;> decide) hr]
      rfl
    · exact absurd h (by simp)

theorem readSign_append (hrest : endsNumber rest = true) (t : Text) :
    readSign (t ++ rest) = ((readSign t).1, (readSign t).2 ++ rest) := by
  cases t with
  | cons c t =>
    by_cases hc : c = '-'
    · subst hc
      rfl
    · simp [readSign, hc]
  | nil =>
    cases rest with
    | nil => rfl
    | cons c r =>
      have hc : c ≠ '-' := ne_of_endsNumber hrest (by decide)
      simp [readSign, hc]

theorem readFraction_append (hrest : endsNumber rest = true) (t : Text) :
    readFraction (t ++ rest) = ((readFraction t).1, (readFraction t).2 ++ rest) := by
  cases t with
  | cons c t =>
    by_cases hc : c = '.'
    · subst hc
      have hdigits := takeWhile_append_of_endsNumber hrest
        (fun _ _ => isDecimalDigit_of_endsNumber) t
      simp only [List.cons_append, readFraction, hdigits.1, hdigits.2]
      split <;> rfl
    · simp [readFraction, hc]
  | nil =>
    cases rest with
    | nil => rfl
    | cons c r =>
      have hc : c ≠ '.' := ne_of_endsNumber hrest (by decide)
      simp [readFraction, hc]

theorem endsNumber_append (hrest : endsNumber rest = true) (t : Text) :
    endsNumber (t ++ rest) = endsNumber t := by
  cases t with
  | nil => exact hrest
  | cons c t => rfl

theorem readNumber?_append (hrest : endsNumber rest = true) (t : Text) :
    readNumber? (t ++ rest) = (readNumber? t).map fun r => (r.1, r.2 ++ rest) := by
  have hdigits := takeWhile_append_of_endsNumber hrest (fun _ _ => isDecimalDigit_of_endsNumber)
  simp only [readNumber?, readSign_append hrest, (hdigits _).1, (hdigits _).2,
    readFraction_append hrest, endsNumber_append hrest]
  split <;> rfl

theorem readKey?_append (hrest : endsNumber rest = true) {t : Text} (ht : t ≠ []) :
    readKey? (t ++ rest) = (readKey? t).map fun r => (r.1, r.2 ++ rest) := by
  obtain ⟨c, t, rfl⟩ := List.exists_cons_of_ne_nil ht
  have hname := takeWhile_append_of_endsNumber hrest (fun _ _ => isKeyChar_of_endsNumber) t
  have hequals : ∀ d r, rest = d :: r → d ≠ '=' := by
    rintro d r rfl
    exact ne_of_endsNumber hrest (by decide)
  simp only [List.cons_append, readKey?, hname.1, hname.2]
  by_cases hc : isKeyStart c = true
  · rw [if_pos hc, if_pos hc]
    cases htail : t.dropWhile isKeyChar with
    | nil =>
      cases rest with
      | nil => rfl
      | cons d r => simp [hequals d r rfl]
    | cons d u =>
      by_cases hd : d = '='
      · subst hd
        cases u with
        | nil =>
          cases rest with
          | nil => rfl
          | cons d r => simp [hequals d r rfl]
        | cons e u => by_cases he : e = '=' <;> simp [he]
      · simp [hd]
  · rw [if_neg hc, if_neg hc]
    rfl

/-- A bracketed group ends inside the text in which it begins. -/
theorem readWord_append (hrest : endsNumber rest = true) {inside : Bool} {t : Text}
    (h : (readWord inside t).2 = []) (hinside : inside = true → ']' ∈ t) :
    readWord inside (t ++ rest) = (t, rest) := by
  induction t generalizing inside with
  | nil =>
    cases inside with
    | true => exact absurd (hinside rfl) (by simp)
    | false =>
      cases rest with
      | nil => rfl
      | cons c r =>
        have hopen : c ≠ '[' := ne_of_endsNumber hrest (by decide)
        simp [readWord, hopen, isWordPart_of_endsNumber hrest]
  | cons c t ih =>
    rw [List.cons_append]
    simp only [readWord] at h ⊢
    by_cases hin : inside = true
    · rw [if_pos hin] at h ⊢
      have hmem : (c != ']') = true → ']' ∈ t := fun hc =>
        (List.mem_cons.1 (hinside hin)).resolve_left fun heq => by simp [← heq] at hc
      rw [ih h hmem]
    rw [if_neg hin] at h ⊢
    by_cases hopen : c = '['
    · rw [if_pos hopen] at h ⊢
      split at h
      · next hmem => rw [if_pos (List.mem_append_left rest hmem), ih h fun _ => hmem]
      · exact absurd h (by simp)
    rw [if_neg hopen] at h ⊢
    split at h
    · next hpart => rw [if_pos hpart, ih h (by simp)]
    · exact absurd h (by simp)

/-! ## Any token -/

/-- The word at the beginning of a text, if there is one. -/
def readWord? (t : Text) : Option (Text × Text) :=
  if (readWord false t).1.isEmpty then none else some (readWord false t)

/-- Apart from parentheses, the first class that has a token wins. -/
theorem read?_cons {c : Char} (hopen : c ≠ '(') (hclose : c ≠ ')') (t : Text) :
    read? (c :: t) =
      ((readQuoted? (c :: t)).map fun r => (.quoted r.1, r.2)).or
        (((readKey? (c :: t)).map fun r => (.key r.1, r.2)).or
          (((readNumber? (c :: t)).map fun r => (.number r.1, r.2)).or
            ((readWord? (c :: t)).map fun r => (.word r.1, r.2)))) := by
  rw [read?]
  · rcases readQuoted? (c :: t) with _ | q
    · rcases readKey? (c :: t) with _ | k
      · rcases readNumber? (c :: t) with _ | n
        · simp only [readWord?]
          split <;> rfl
        · rfl
      · rfl
    · rfl
  · exact hopen
  · exact hclose

/-- No token begins with a character that begins none of the classes. -/
theorem read?_eq_none {c : Char} {t : Text} (hquoted : readQuoted? (c :: t) = none)
    (hkey : isKeyStart c = false) (hdigit : isDecimalDigit c = false)
    (hpart : isWordPart c = false) (hother : c ∉ ['(', ')', '[', '-']) :
    read? (c :: t) = none := by
  simp only [List.mem_cons, List.not_mem_nil, or_false, not_or] at hother
  obtain ⟨hopen, hclose, hbracket, hsign⟩ := hother
  have hk : readKey? (c :: t) = none := by simp [readKey?, hkey]
  have hn : readNumber? (c :: t) = none := by simp [readNumber?, readSign, hsign, hdigit]
  have hw : readWord? (c :: t) = none := by simp [readWord?, readWord, hbracket, hpart]
  rw [read?_cons hopen hclose, hquoted, hk, hn, hw]
  rfl

/-- A quote begins nothing but a text in quotes. -/
theorem readQuoted?_of_read? {c : Char} {t rest : Text} {lexeme : Lexeme}
    (h : read? (c :: t) = some (lexeme, rest)) (hc : c = '"' ∨ c = '\'') :
    readQuoted? (c :: t) ≠ none := by
  intro hnone
  rw [read?_eq_none hnone] at h
  · exact absurd h (by simp)
  all_goals rcases hc with rfl | rfl <;> decide

theorem isKeyStart_of_isBlank {c : Char} (h : isBlank c = true) : isKeyStart c = false := by
  have halpha : c.isAlpha = false := by
    by_contra hc
    rw [Bool.not_eq_false] at hc
    have hword := isWordChar_of_isAlphanum (c := c) (by rw [Char.isAlphanum, hc, Bool.true_or])
    exact absurd hword (by rw [isWordChar_of_isBlank h]; decide)
  simp only [isKeyStart, halpha, Bool.false_or, Bool.or_eq_false_iff, beq_eq_false_iff_ne]
  refine ⟨⟨?_, ?_⟩, ?_⟩ <;> rintro rfl <;> exact absurd h (by decide)

/-- No token begins with a blank. -/
theorem isBlank_of_read? {c : Char} {t rest : Text} {lexeme : Lexeme}
    (h : read? (c :: t) = some (lexeme, rest)) : isBlank c = false := by
  by_contra hblank
  rw [Bool.not_eq_false] at hblank
  have hends : endsNumber [c] = true := endsNumber_cons.2 (.inl hblank)
  have hquoted : readQuoted? (c :: t) = none := by
    rw [readQuoted?, if_neg]
    rintro (rfl | rfl) <;> exact absurd hblank (by decide)
  have hother : c ∉ ['(', ')', '[', '-'] := by
    intro hc
    simp only [List.mem_cons, List.not_mem_nil, or_false] at hc
    rcases hc with rfl | rfl | rfl | rfl <;> exact absurd hblank (by decide)
  rw [read?_eq_none hquoted (isKeyStart_of_isBlank hblank) (isDecimalDigit_of_endsNumber hends)
    (isWordPart_of_endsNumber hends) hother] at h
  exact absurd h (by simp)

/-- No token begins with an equals sign. -/
theorem ne_equals_of_read? {c : Char} {t rest : Text} {lexeme : Lexeme}
    (h : read? (c :: t) = some (lexeme, rest)) : c ≠ '=' := by
  rintro rfl
  rw [read?_eq_none rfl (by decide) (by decide) (by decide) (by decide)] at h
  exact absurd h (by simp)

theorem readWord?_append (hrest : endsNumber rest = true) {t : Text} {r : Text × Text}
    (h : readWord? t = some r) (hr : r.2 = []) : readWord? (t ++ rest) = some (r.1, rest) := by
  rw [readWord?] at h
  split at h
  · exact absurd h (by simp)
  · next hne =>
    obtain rfl := Option.some.inj h
    have ht : (readWord false t).1 = t := by
      have happ := append_readWord false t
      rwa [hr, List.append_nil] at happ
    rw [ht] at hne ⊢
    rw [readWord?, readWord_append hrest hr (by simp), if_neg hne]

/-- **A token is read in front of anything that ends it.** -/
theorem read?_append (hrest : endsNumber rest = true) {t : Text} {lexeme : Lexeme}
    (h : read? t = some (lexeme, [])) : read? (t ++ rest) = some (lexeme, rest) := by
  obtain _ | ⟨c, t⟩ := t
  · exact absurd h (by simp [read?])
  by_cases hopen : c = '('
  · subst hopen
    obtain ⟨rfl, rfl⟩ := Prod.mk.inj (Option.some.inj h)
    rfl
  by_cases hclose : c = ')'
  · subst hclose
    obtain ⟨rfl, rfl⟩ := Prod.mk.inj (Option.some.inj h)
    rfl
  have hquote := readQuoted?_of_read? h
  rw [read?_cons hopen hclose] at h
  have hkey := readKey?_append hrest (List.cons_ne_nil c t)
  have hnumber := readNumber?_append hrest (c :: t)
  rw [List.cons_append] at hkey hnumber ⊢
  rw [read?_cons hopen hclose]
  cases hq : readQuoted? (c :: t) with
  | some r =>
    obtain ⟨raw, after⟩ := r
    rw [hq] at h
    obtain ⟨rfl, rfl⟩ := Prod.mk.inj (Option.some.inj h)
    rw [← List.cons_append, readQuoted?_append hq]
    rfl
  | none =>
    have hq' : readQuoted? (c :: (t ++ rest)) = none := by
      rw [readQuoted?, if_neg fun hc => hquote hc hq]
    rw [hq] at h
    rw [hq', hkey, hnumber]
    cases hk : readKey? (c :: t) with
    | some r =>
      obtain ⟨name, after⟩ := r
      rw [hk] at h
      obtain ⟨rfl, rfl⟩ := Prod.mk.inj (Option.some.inj h)
      rfl
    | none =>
      rw [hk] at h
      cases hn : readNumber? (c :: t) with
      | some r =>
        obtain ⟨raw, after⟩ := r
        rw [hn] at h
        obtain ⟨rfl, rfl⟩ := Prod.mk.inj (Option.some.inj h)
        rfl
      | none =>
        rw [hn] at h
        obtain ⟨r, hr, heq⟩ := Option.map_eq_some_iff.1 h
        obtain ⟨rfl, hafter⟩ := Prod.mk.inj heq
        have hword := readWord?_append hrest hr hafter
        rw [List.cons_append] at hword
        rw [hword]
        rfl

/-! ## Keys -/

/-- Whether a text may be a key. -/
def IsKey (t : Text) : Prop :=
  ∃ c rest, t = c :: rest ∧ isKeyStart c = true ∧ ∀ d ∈ rest, isKeyChar d = true

/-- A key is read in front of its equals sign, unless another equals sign follows. -/
theorem read?_key {name : Text} (h : IsKey name) {c : Char} (hc : c ≠ '=') (rest : Text) :
    read? (name ++ '=' :: c :: rest) = some (.key name, c :: rest) := by
  obtain ⟨first, name, rfl, hfirst, hname⟩ := h
  have hstop : ¬isKeyChar '=' = true := by decide +kernel
  have hkey : readKey? (first :: (name ++ '=' :: c :: rest)) = some (first :: name, c :: rest) := by
    rw [readKey?, if_pos hfirst, List.takeWhile_append_of_pos hname,
      List.dropWhile_append_of_pos hname, List.takeWhile_cons_of_neg hstop,
      List.dropWhile_cons_of_neg hstop, List.append_nil]
    simp only [hc, if_false]
  have hquoted : readQuoted? (first :: (name ++ '=' :: c :: rest)) = none := by
    rw [readQuoted?, if_neg]
    rintro (rfl | rfl) <;> exact absurd hfirst (by decide)
  have hopen : first ≠ '(' := by
    rintro rfl
    exact absurd hfirst (by decide)
  have hclose : first ≠ ')' := by
    rintro rfl
    exact absurd hfirst (by decide)
  rw [List.cons_append, read?_cons hopen hclose, hquoted, hkey]
  rfl

/-! ## The edges of a token -/

theorem getLast?_of_readQuotedRest {quote : Char} {t raw rest : Text}
    (h : readQuotedRest quote t = some (raw, rest)) : raw.getLast? = some quote := by
  fun_induction readQuotedRest quote t generalizing raw with
  | case1 => exact absurd h (by simp)
  | case2 => exact absurd h (by simp)
  | case3 c t hc ih =>
    obtain ⟨⟨r, s⟩, hr, heq⟩ := Option.map_eq_some_iff.1 h
    obtain ⟨rfl, rfl⟩ := Prod.mk.inj heq
    simp [List.getLast?_cons, ih hr]
  | case4 t =>
    obtain ⟨rfl, rfl⟩ := Prod.mk.inj (Option.some.inj h)
    rfl
  | case5 => exact absurd h (by simp)
  | case6 c t _ hstop hslash ih =>
    obtain ⟨⟨r, s⟩, hr, heq⟩ := Option.map_eq_some_iff.1 h
    obtain ⟨rfl, rfl⟩ := Prod.mk.inj heq
    simp [List.getLast?_cons, ih hr]

theorem isBlank_getLast_of_readQuoted? {t raw rest : Text}
    (h : readQuoted? t = some (raw, rest)) {d : Char} (hd : raw.getLast? = some d) :
    isBlank d = false := by
  cases t with
  | nil => exact absurd h (by simp [readQuoted?])
  | cons quote t =>
    rw [readQuoted?] at h
    split at h
    · next hquote =>
      obtain ⟨⟨r, s⟩, hr, heq⟩ := Option.map_eq_some_iff.1 h
      obtain ⟨rfl, rfl⟩ := Prod.mk.inj heq
      rw [List.getLast?_cons, getLast?_of_readQuotedRest hr] at hd
      obtain rfl := Option.some.inj hd
      rcases hquote with rfl | rfl <;> decide
    · exact absurd h (by simp)

/-- A number holds no blanks. -/
theorem isBlank_of_mem_readNumber? {t raw rest : Text} (h : readNumber? t = some (raw, rest))
    {c : Char} (hc : c ∈ raw) : isBlank c = false := by
  have hdigit : ∀ {u : Text}, c ∈ u.takeWhile isDecimalDigit → isBlank c = false := by
    intro u hu
    by_contra hblank
    rw [Bool.not_eq_false] at hblank
    exact absurd (List.mem_takeWhile_imp hu) (by rw [isDecimalDigit_of_isBlank hblank]; decide)
  simp only [readNumber?] at h
  split at h
  · obtain ⟨rfl, -⟩ := Prod.mk.inj (Option.some.inj h)
    rw [List.mem_append, List.mem_append] at hc
    rcases hc with (hsign | hwhole) | hfraction
    · unfold readSign at hsign
      split at hsign
      · obtain rfl := List.mem_singleton.1 hsign
        decide
      · exact absurd hsign (by simp)
    · exact hdigit hwhole
    · unfold readFraction at hfraction
      split at hfraction
      · split at hfraction
        · exact absurd hfraction (by simp)
        · rcases List.mem_cons.1 hfraction with rfl | hmem
          · decide
          · exact hdigit hmem
      · exact absurd hfraction (by simp)
  · exact absurd h (by simp)

/-- A word ends in a closing bracket or in a character that stands outside brackets. -/
theorem isBlank_getLast_of_readWord {inside : Bool} {t : Text} (h : (readWord inside t).2 = [])
    (hinside : inside = true → ']' ∈ t) {d : Char} (hd : t.getLast? = some d) :
    isBlank d = false := by
  induction t generalizing inside with
  | nil => exact absurd hd (by simp)
  | cons c t ih =>
    -- either the word goes on behind the character, or the character is the last one
    have hgoes : ∀ onward : Bool, (readWord onward t).2 = [] → (onward = true → ']' ∈ t) →
        (t = [] → isBlank c = false) → isBlank d = false := by
      intro onward hrest hmem hlast
      rcases List.eq_nil_or_concat' t with rfl | ⟨front, e, rfl⟩
      · obtain rfl := Option.some.inj hd
        exact hlast rfl
      · exact ih hrest hmem (by simpa [List.getLast?_cons] using hd)
    simp only [readWord] at h
    by_cases hin : inside = true
    · rw [if_pos hin] at h
      refine hgoes _ h (fun hc => ?_) ?_
      · exact (List.mem_cons.1 (hinside hin)).resolve_left fun heq => by simp [← heq] at hc
      · rintro rfl
        obtain rfl := List.mem_singleton.1 (hinside hin)
        decide
    rw [if_neg hin] at h
    by_cases hopen : c = '['
    · rw [if_pos hopen] at h
      split at h
      · next hmem => exact hgoes _ h (fun _ => hmem) fun hnil => absurd hmem (by simp [hnil])
      · exact absurd h (by simp)
    rw [if_neg hopen] at h
    split at h
    · next hpart =>
      refine hgoes _ h (by simp) fun _ => ?_
      rw [isWordPart, Bool.not_eq_true', Bool.or_eq_false_iff] at hpart
      exact hpart.1
    · exact absurd h (by simp)

/-- A text that is read as one token is the source of that token. -/
theorem eq_source_of_read? {t : Text} {lexeme : Lexeme} (h : read? t = some (lexeme, [])) :
    t = lexeme.source := by
  have happ := (append_of_read? h).1
  rwa [List.append_nil] at happ

/-- **A token neither begins nor ends with a blank.** -/
theorem isTrim_of_read? {t : Text} {lexeme : Lexeme} (h : read? t = some (lexeme, [])) :
    t.IsTrim := by
  obtain _ | ⟨c, t⟩ := t
  · exact absurd h (by simp [read?])
  refine ⟨⟨c, t, rfl, isBlank_of_read? h⟩, ?_⟩
  suffices hlast : ∀ d, (c :: t).getLast? = some d → isBlank d = false by
    obtain ⟨front, d, hd⟩ := (List.eq_nil_or_concat' (c :: t)).resolve_left (by simp)
    exact ⟨front, d, hd, hlast d (by rw [hd, List.getLast?_concat])⟩
  intro d hd
  by_cases hopen : c = '('
  · subst hopen
    obtain ⟨-, rfl⟩ := Prod.mk.inj (Option.some.inj h)
    obtain rfl := Option.some.inj hd
    decide
  by_cases hclose : c = ')'
  · subst hclose
    obtain ⟨-, rfl⟩ := Prod.mk.inj (Option.some.inj h)
    obtain rfl := Option.some.inj hd
    decide
  rw [read?_cons hopen hclose] at h
  rcases Option.or_eq_some_iff.1 h with hquoted | ⟨-, h⟩
  · obtain ⟨⟨raw, after⟩, hr, heq⟩ := Option.map_eq_some_iff.1 hquoted
    obtain ⟨rfl, rfl⟩ := Prod.mk.inj heq
    rw [append_of_readQuoted? hr, List.append_nil] at hd
    exact isBlank_getLast_of_readQuoted? hr hd
  rcases Option.or_eq_some_iff.1 h with hkey | ⟨-, h⟩
  · obtain ⟨⟨name, after⟩, hr, heq⟩ := Option.map_eq_some_iff.1 hkey
    obtain ⟨rfl, rfl⟩ := Prod.mk.inj heq
    rw [append_of_readKey? hr, List.append_nil, List.getLast?_concat] at hd
    obtain rfl := Option.some.inj hd
    decide
  rcases Option.or_eq_some_iff.1 h with hnumber | ⟨-, h⟩
  · obtain ⟨⟨raw, after⟩, hr, heq⟩ := Option.map_eq_some_iff.1 hnumber
    obtain ⟨rfl, rfl⟩ := Prod.mk.inj heq
    have happ := (append_of_readNumber? hr).1
    rw [List.append_nil] at happ
    exact isBlank_of_mem_readNumber? hr (happ ▸ List.mem_of_getLast? hd)
  · obtain ⟨⟨raw, after⟩, hr, heq⟩ := Option.map_eq_some_iff.1 h
    obtain ⟨rfl, rfl⟩ := Prod.mk.inj heq
    rw [readWord?] at hr
    split at hr
    · exact absurd hr (by simp)
    · exact isBlank_getLast_of_readWord (congrArg Prod.snd (Option.some.inj hr)) (by simp) hd

end Lexeme

end Stencil
