/-!
# Text as a list of characters

Templates, names, values and output are all sequences of code points, and everything that reads
them looks at the front of what is left.  The library therefore works on `Text`, a list of
characters, from the first token to the last line of output; strings of the core library occur
only where text enters or leaves the program.

## What is here

* `Text.dropEndWhile`, `Text.takeEndWhile` — trimming at the end, the counterparts of
  `List.dropWhile` and `List.takeWhile`, with
  `dropEndWhile_append_takeEndWhile`: the two parts make up the text.
* `Text.splitAtFirst` — the text before the first occurrence of a needle and the text from there
  on.  `splitAtFirst_append` says that nothing is lost and `prefix_of_splitAtFirst` that the second
  part starts with the needle.
* `Text.stripPrefix?` — what follows a given beginning.
* `Text.ofNat`, `Text.ofInt` — decimal numerals.
-/

set_option autoImplicit false

namespace Stencil

/-- A sequence of Unicode code points. -/
abbrev Text := List Char

instance : Coe String Text := ⟨String.toList⟩

namespace Text

/-! ## Trimming at the end -/

/-- Removes the longest ending whose characters all satisfy `p`. -/
def dropEndWhile (p : Char → Bool) (t : Text) : Text :=
  (t.reverse.dropWhile p).reverse

/-- The longest ending whose characters all satisfy `p`. -/
def takeEndWhile (p : Char → Bool) (t : Text) : Text :=
  (t.reverse.takeWhile p).reverse

theorem dropEndWhile_append_takeEndWhile (p : Char → Bool) (t : Text) :
    dropEndWhile p t ++ takeEndWhile p t = t := by
  rw [dropEndWhile, takeEndWhile, ← List.reverse_append, List.takeWhile_append_dropWhile,
    List.reverse_reverse]

@[simp] theorem dropEndWhile_nil (p : Char → Bool) : dropEndWhile p [] = [] := rfl

@[simp] theorem takeEndWhile_nil (p : Char → Bool) : takeEndWhile p [] = [] := rfl

/-! ## Beginnings and first occurrences -/

/-- What follows `start` in a text that begins with it. -/
def stripPrefix? : (start : Text) → Text → Option Text
  | [], t => some t
  | _ :: _, [] => none
  | s :: start, c :: t => if s = c then stripPrefix? start t else none

theorem stripPrefix?_eq_some_iff {start t rest : Text} :
    stripPrefix? start t = some rest ↔ t = start ++ rest := by
  induction start generalizing t with
  | nil => simp [stripPrefix?, eq_comm]
  | cons s start ih =>
    cases t with
    | nil => simp [stripPrefix?]
    | cons c t =>
      by_cases h : s = c
      · subst h; simp [stripPrefix?, ih]
      · simp [stripPrefix?, h, Ne.symm h]

/-- The text before the first occurrence of `needle`, and the text from that occurrence on. -/
def splitAtFirst (needle : Text) : Text → Option (Text × Text)
  | [] => if needle = [] then some ([], []) else none
  | c :: t =>
    if needle <+: c :: t then some ([], c :: t)
    else (splitAtFirst needle t).map fun (before, found) => (c :: before, found)

/-- Cutting a text at the first occurrence of a needle loses nothing. -/
theorem splitAtFirst_append {needle t before found : Text}
    (h : splitAtFirst needle t = some (before, found)) : before ++ found = t := by
  induction t generalizing before found with
  | nil =>
    simp only [splitAtFirst] at h
    split at h <;> simp_all
  | cons c t ih =>
    simp only [splitAtFirst] at h
    split at h
    · simp only [Option.some.injEq, Prod.mk.injEq] at h
      simp [← h.1, ← h.2]
    · obtain ⟨⟨b, f⟩, hbf, heq⟩ := Option.map_eq_some_iff.1 h
      simp only [Prod.mk.injEq] at heq
      simp [← heq.1, ← heq.2, ih hbf]

/-- The second part starts with the needle. -/
theorem prefix_of_splitAtFirst {needle t before found : Text}
    (h : splitAtFirst needle t = some (before, found)) : needle <+: found := by
  induction t generalizing before found with
  | nil =>
    simp only [splitAtFirst] at h
    split at h <;> simp_all
  | cons c t ih =>
    simp only [splitAtFirst] at h
    split at h
    · next hp =>
      simp only [Option.some.injEq, Prod.mk.injEq] at h
      exact h.2 ▸ hp
    · obtain ⟨⟨b, f⟩, hbf, heq⟩ := Option.map_eq_some_iff.1 h
      simp only [Prod.mk.injEq] at heq
      exact heq.2 ▸ ih hbf

/-! ## Numerals and lists -/

/-- The decimal numeral of a natural number. -/
def ofNat (n : Nat) : Text :=
  Nat.toDigits 10 n

/-- The decimal numeral of an integer, with a minus sign in front of a negative one.  There is one
for every integer: that interpreters may refuse to write out more than 4300 digits is left out. -/
def ofInt : Int → Text
  | .ofNat n => ofNat n
  | .negSucc n => '-' :: ofNat (n + 1)

/-- The items one after another with `separator` between neighbours. -/
def join (separator : Text) (items : List Text) : Text :=
  separator.intercalate items

/-- Whether `a` stands before `b` in the order of code points, character by character. -/
def le (a b : Text) : Bool :=
  match a, b with
  | [], _ => true
  | _ :: _, [] => false
  | x :: a, y :: b => x.toNat < y.toNat || (x == y && le a b)

/-- The distinct texts of a list in the order of code points. -/
def sortDistinct (ts : List Text) : List Text :=
  ts.eraseDups.mergeSort le

end Text

end Stencil
