import Stencil.Number.Numeral
import Stencil.Text.Blank
import Stencil.Text.Word

/-!
# Tokens of a parameter list

The inside of a tag is cut into tokens with blanks between them.  At each place the first of these
that matches is taken:

* a parenthesis;
* a text in single or double quotes, in which a backslash takes the next character along, and which
  may not hold a backslash before a line feed;
* a key, which is a name before a single equals sign;
* a number: an optional minus sign, digits, and an optional fraction, which must be followed by a
  blank, a parenthesis or the end;
* a word, made of bracketed groups and of characters other than blanks, parentheses, brackets,
  quotes and equals signs.

`lexFrom` looks only at the rest of the text, so a token does not depend on what stands before it.
-/

set_option autoImplicit false

namespace Stencil

/-- A token of a parameter list, without its place. -/
inductive Lexeme where
  /-- An opening parenthesis. -/
  | opening
  /-- A closing parenthesis. -/
  | closing
  /-- A text with its quotes. -/
  | quoted (raw : Text)
  /-- A number. -/
  | number (raw : Text)
  /-- A key without its equals sign. -/
  | key (name : Text)
  /-- A word. -/
  | word (raw : Text)
deriving DecidableEq, Repr

namespace Lexeme

/-- The text of a token. -/
def text : Lexeme → Text
  | .opening => ['(']
  | .closing => [')']
  | .quoted raw | .number raw | .key raw | .word raw => raw

/-- The source of a token, which for a key includes the equals sign. -/
def source : Lexeme → Text
  | .key name => name ++ ['=']
  | lexeme => lexeme.text

end Lexeme

/-- A token of a parameter list with the range of characters that it covers. -/
structure ArgToken where
  /-- The token. -/
  lexeme : Lexeme
  /-- The number of characters before it. -/
  start : Nat
  /-- The number of characters up to its end. -/
  stop : Nat
deriving DecidableEq, Repr

namespace Lexeme

/-! ## The classes of tokens

Each reader answers the longest beginning of a text that is a token of its class, and the rest. -/

/-- Goes on inside a text in quotes: what is left of it up to the closing quote. -/
def readQuotedRest (quote : Char) : Text → Option (Text × Text)
  | [] => none
  | '\\' :: c :: t =>
    if c = '\n' then none
    else (readQuotedRest quote t).map fun (raw, rest) => ('\\' :: c :: raw, rest)
  | c :: t =>
    if c = quote then some ([c], t)
    else if c = '\\' then none
    else (readQuotedRest quote t).map fun (raw, rest) => (c :: raw, rest)

/-- A text in quotes. -/
def readQuoted? : Text → Option (Text × Text)
  | c :: t =>
    if c = '"' ∨ c = '\'' then
      (readQuotedRest c t).map fun (raw, rest) => (c :: raw, rest)
    else none
  | [] => none

/-- Whether a key may start with the character. -/
def isKeyStart (c : Char) : Bool :=
  c.isAlpha || c == '_' || c == '$' || c == '@'

/-- Whether a character goes on with a key. -/
def isKeyChar (c : Char) : Bool :=
  isWordChar c || c == '$' || c == '-'

/-- A key: the name before a single equals sign. -/
def readKey? : Text → Option (Text × Text)
  | c :: t =>
    if isKeyStart c then
      match t.dropWhile isKeyChar with
      | ['='] => some (c :: t.takeWhile isKeyChar, [])
      | '=' :: d :: rest =>
        if d = '=' then none else some (c :: t.takeWhile isKeyChar, d :: rest)
      | _ => none
    else none
  | [] => none

/-- Whether a number may end before the text. -/
def endsNumber : Text → Bool
  | [] => true
  | c :: _ => isBlank c || c == '(' || c == ')'

/-- The fraction of a number: a point and at least one digit. -/
def readFraction : Text → Text × Text
  | '.' :: t =>
    if (t.takeWhile isDecimalDigit).isEmpty then ([], '.' :: t)
    else ('.' :: t.takeWhile isDecimalDigit, t.dropWhile isDecimalDigit)
  | t => ([], t)

/-- An optional minus sign. -/
def readSign : Text → Text × Text
  | '-' :: t => (['-'], t)
  | t => ([], t)

/-- A number. -/
def readNumber? (t : Text) : Option (Text × Text) :=
  let sign := readSign t
  let whole := sign.2.takeWhile isDecimalDigit
  let fraction := readFraction (sign.2.dropWhile isDecimalDigit)
  if whole ≠ [] ∧ endsNumber fraction.2 then some (sign.1 ++ whole ++ fraction.1, fraction.2)
  else none

/-- Whether a character outside brackets goes on with a word. -/
def isWordPart (c : Char) : Bool :=
  !(isBlank c || ['(', ')', '[', ']', '=', '"', '\''].contains c)

/-- A word, which is empty if none starts here.  The flag says whether the text starts inside a
bracketed group; such a group is entered only if it is closed later. -/
def readWord (inside : Bool) : Text → Text × Text
  | [] => ([], [])
  | c :: t =>
    let onward (inside : Bool) : Text × Text :=
      (c :: (readWord inside t).1, (readWord inside t).2)
    if inside then onward (c != ']')
    else if c = '[' then if ']' ∈ t then onward true else ([], c :: t)
    else if isWordPart c then onward false
    else ([], c :: t)

/-- The token at the beginning of a text that starts with neither a blank nor the end, and the
rest. -/
def read? (t : Text) : Option (Lexeme × Text) :=
  match t with
  | [] => none
  | '(' :: rest => some (.opening, rest)
  | ')' :: rest => some (.closing, rest)
  | c :: rest =>
    match readQuoted? (c :: rest) with
    | some (raw, rest) => some (.quoted raw, rest)
    | none =>
      match readKey? (c :: rest) with
      | some (name, rest) => some (.key name, rest)
      | none =>
        match readNumber? (c :: rest) with
        | some (raw, rest) => some (.number raw, rest)
        | none =>
          let word := readWord false (c :: rest)
          if word.1.isEmpty then none else some (.word word.1, word.2)

/-! ## Reading loses nothing -/

theorem append_of_readQuotedRest {quote : Char} {t raw rest : Text}
    (h : readQuotedRest quote t = some (raw, rest)) : t = raw ++ rest := by
  fun_induction readQuotedRest quote t generalizing raw with
  | case1 => simp at h
  | case2 => simp at h
  | case3 c t hc ih =>
    obtain ⟨⟨r, s⟩, hr, heq⟩ := Option.map_eq_some_iff.1 h
    simp only [Prod.mk.injEq] at heq
    obtain ⟨rfl, rfl⟩ := heq
    simp [← ih hr]
  | case4 t =>
    simp only [Option.some.injEq, Prod.mk.injEq] at h
    simp [← h.1, ← h.2]
  | case5 => simp at h
  | case6 c t _ _ _ ih =>
    obtain ⟨⟨r, s⟩, hr, heq⟩ := Option.map_eq_some_iff.1 h
    simp only [Prod.mk.injEq] at heq
    obtain ⟨rfl, rfl⟩ := heq
    simp [← ih hr]

theorem append_of_readQuoted? {t raw rest : Text} (h : readQuoted? t = some (raw, rest)) :
    t = raw ++ rest := by
  unfold readQuoted? at h
  split at h
  · split at h
    · obtain ⟨⟨r, s⟩, hr, heq⟩ := Option.map_eq_some_iff.1 h
      simp only [Prod.mk.injEq] at heq
      obtain ⟨rfl, rfl⟩ := heq
      simp [← append_of_readQuotedRest hr]
    · simp at h
  · simp at h

theorem append_of_readKey? {t name rest : Text} (h : readKey? t = some (name, rest)) :
    t = (name ++ ['=']) ++ rest := by
  unfold readKey? at h
  split at h
  · next c t =>
    have hall := List.takeWhile_append_dropWhile (p := isKeyChar) (l := t)
    split at h
    · split at h
      · next hd =>
        simp only [Option.some.injEq, Prod.mk.injEq] at h
        rw [hd] at hall
        simp [← h.1, ← h.2, hall]
      · next hd =>
        split at h
        · simp at h
        · simp only [Option.some.injEq, Prod.mk.injEq] at h
          rw [hd] at hall
          simp [← h.1, ← h.2, hall]
      · simp at h
    · simp at h
  · simp at h

theorem append_readSign (t : Text) : (readSign t).1 ++ (readSign t).2 = t := by
  unfold readSign
  split <;> rfl

theorem append_readFraction (t : Text) : (readFraction t).1 ++ (readFraction t).2 = t := by
  unfold readFraction
  split
  · split
    · rfl
    · simp
  · rfl

theorem append_of_readNumber? {t raw rest : Text} (h : readNumber? t = some (raw, rest)) :
    t = raw ++ rest ∧ raw ≠ [] := by
  simp only [readNumber?] at h
  split at h
  · next hw =>
    simp only [Option.some.injEq, Prod.mk.injEq] at h
    obtain ⟨rfl, rfl⟩ := h
    refine ⟨?_, fun hnil => hw.1 ?_⟩
    · rw [List.append_assoc, append_readFraction, List.append_assoc,
        List.takeWhile_append_dropWhile, append_readSign]
    · simp only [List.append_eq_nil_iff] at hnil
      exact hnil.1.2
  · simp at h

theorem append_readWord (inside : Bool) (t : Text) :
    (readWord inside t).1 ++ (readWord inside t).2 = t := by
  induction t generalizing inside with
  | nil => rfl
  | cons c t ih =>
    simp only [readWord]
    split
    · simp [ih]
    · split
      · split <;> simp [ih]
      · split <;> simp [ih]

/-- **Reading a token loses nothing**: its source is not empty and stands at the front of the
text. -/
theorem append_of_read? {t rest : Text} {lexeme : Lexeme} (h : read? t = some (lexeme, rest)) :
    t = lexeme.source ++ rest ∧ lexeme.source ≠ [] := by
  unfold read? at h
  split at h
  · simp at h
  · simp only [Option.some.injEq, Prod.mk.injEq] at h
    simp [← h.1, ← h.2, source, text]
  · simp only [Option.some.injEq, Prod.mk.injEq] at h
    simp [← h.1, ← h.2, source, text]
  · split at h
    · next hq =>
      simp only [Option.some.injEq, Prod.mk.injEq] at h
      obtain ⟨rfl, rfl⟩ := h
      have := append_of_readQuoted? hq
      refine ⟨this, fun hnil => ?_⟩
      simp only [source, text] at hnil
      simp [readQuoted?, hnil] at hq
    · split at h
      · next hk =>
        simp only [Option.some.injEq, Prod.mk.injEq] at h
        obtain ⟨rfl, rfl⟩ := h
        exact ⟨append_of_readKey? hk, by simp [source]⟩
      · split at h
        · next hn =>
          simp only [Option.some.injEq, Prod.mk.injEq] at h
          obtain ⟨rfl, rfl⟩ := h
          exact append_of_readNumber? hn
        · simp only at h
          split at h
          · simp at h
          · next hw =>
            simp only [Option.some.injEq, Prod.mk.injEq] at h
            obtain ⟨rfl, rfl⟩ := h
            exact ⟨(append_readWord false _).symm, by simpa [source, text] using hw⟩

end Lexeme

/-- A character with which no token starts, and the number of characters before it. -/
structure Unexpected where
  /-- The character. -/
  char : Char
  /-- The number of characters before it. -/
  offset : Nat
deriving DecidableEq, Repr

/-- The tokens of a text that starts behind `offset` characters. -/
def lexFrom (offset : Nat) (t : Text) : Except Unexpected (List ArgToken) :=
  match t with
  | [] => .ok []
  | c :: rest =>
    if isBlank c then lexFrom (offset + 1) rest
    else
      match h : Lexeme.read? (c :: rest) with
      | none => .error ⟨c, offset⟩
      | some (lexeme, after) =>
        let stop := offset + lexeme.source.length
        have shorter : after.length < (c :: rest).length := by
          have h := Lexeme.append_of_read? h
          have hlen := congrArg List.length h.1
          have := List.length_pos_iff.2 h.2
          simp only [List.length_append] at hlen
          omega
        (lexFrom stop after).map (⟨lexeme, offset, stop⟩ :: ·)
termination_by t.length
decreasing_by
  · exact Nat.lt_succ_self _
  · exact shorter

/-- The tokens of a parameter list. -/
def lex (t : Text) : Except Unexpected (List ArgToken) :=
  lexFrom 0 t

end Stencil
