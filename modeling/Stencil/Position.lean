import Stencil.Text.Basic

/-!
# Places in a source text

A `Cursor` stands in front of a character of a source: it knows how many characters, lines and
columns lie behind it.  Only the line feed ends a line here.  `Cursor.advance` moves it over a text,
and `offset_advance` and `advance_append` are all that is needed to reason about where it ends up.
A `Position` is the part of a cursor that errors and nodes keep.
-/

set_option autoImplicit false

namespace Stencil

/-- A line and a column, both counted from one.  The zero position stands for no place at all. -/
structure Position where
  /-- The line. -/
  line : Nat
  /-- The column. -/
  column : Nat
deriving DecidableEq, Repr

/-- No place in a source. -/
def Position.none : Position := ⟨0, 0⟩

/-- A place between two characters of a source. -/
structure Cursor where
  /-- The number of characters before it. -/
  offset : Nat
  /-- The line, counted from one. -/
  line : Nat
  /-- The column, counted from one. -/
  column : Nat
deriving DecidableEq, Repr

namespace Cursor

/-- The beginning of a source. -/
def start : Cursor := ⟨0, 1, 1⟩

/-- The line and column of a cursor. -/
def position (c : Cursor) : Position := ⟨c.line, c.column⟩

/-- The cursor behind the next character. -/
def step (c : Cursor) (char : Char) : Cursor :=
  if char = '\n' then ⟨c.offset + 1, c.line + 1, 1⟩ else ⟨c.offset + 1, c.line, c.column + 1⟩

/-- The cursor behind a text. -/
def advance (c : Cursor) (t : Text) : Cursor :=
  t.foldl step c

@[simp] theorem advance_nil (c : Cursor) : c.advance [] = c := rfl

@[simp] theorem advance_append (c : Cursor) (s t : Text) :
    c.advance (s ++ t) = (c.advance s).advance t :=
  List.foldl_append

@[simp] theorem offset_advance (c : Cursor) (t : Text) :
    (c.advance t).offset = c.offset + t.length := by
  induction t generalizing c with
  | nil => rfl
  | cons a t ih =>
    have : (c.step a).offset = c.offset + 1 := by unfold step; split <;> rfl
    rw [advance, List.foldl_cons, ← advance, ih, this, List.length_cons]
    omega

/-- The line grows by one with every line feed. -/
@[simp] theorem line_advance (c : Cursor) (t : Text) :
    (c.advance t).line = c.line + t.count '\n' := by
  induction t generalizing c with
  | nil => rfl
  | cons a t ih =>
    rw [advance, List.foldl_cons, ← advance, ih]
    by_cases h : a = '\n' <;> simp [step, h]
    omega

end Cursor

end Stencil
