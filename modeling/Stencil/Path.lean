import Stencil.Error

/-!
# Paths

A path such as `../a.[b c]/d` leads from a scope to a value.  It is read in two steps.

`PathPiece.read` cuts the text into parent markers `..` and segments.  A segment is bare, and then
reaches up to the next dot, slash or opening bracket, or it stands in brackets and may hold
anything but a closing one.  Single dots and slashes separate segments and otherwise mean nothing.

`Path.parse` checks that the parent markers come first and gives the segments their meaning: an `@`
at the front makes the path a data path, and a bare first segment `this` of any other path stands
for the scope itself and is dropped.
-/

set_option autoImplicit false

namespace Stencil

/-- A path from a scope to a value. -/
structure Path where
  /-- The text of the path. -/
  source : Text
  /-- The segments that are looked up one after another. -/
  segments : List Text
  /-- The number of scopes to leave first. -/
  depth : Nat
  /-- Whether the first segment names a variable of the rendering, as in `@index`. -/
  isData : Bool
deriving DecidableEq, Repr

namespace Path

/-- Whether the path is one bare name, which may be the name of a helper. -/
def isSimple (p : Path) : Bool :=
  !p.isData && p.depth == 0 && p.segments == [p.source]

/-- Whether the path stands for a scope itself. -/
def isThis (p : Path) : Bool :=
  !p.isData && p.segments.isEmpty

end Path

/-- A piece of the text of a path. -/
inductive PathPiece where
  /-- A parent marker. -/
  | parent
  /-- A segment without brackets. -/
  | bare (text : Text)
  /-- A segment in brackets. -/
  | bracketed (text : Text)
  /-- A bracket that is not closed. -/
  | unclosed
deriving DecidableEq, Repr

namespace PathPiece

/-- Whether a character goes on with a bare segment. -/
def isBareChar (c : Char) : Bool :=
  c != '.' && c != '/' && c != '['

/-- The pieces of a text. -/
def read : Text → List PathPiece
  | [] => []
  | '[' :: t =>
    if ']' ∈ t then .bracketed (t.takeWhile (· != ']')) :: read (t.dropWhile (· != ']')).tail
    else [.unclosed]
  | '.' :: '.' :: t => .parent :: read t
  | '.' :: t => read t
  | '/' :: t => read t
  | c :: t => .bare (c :: t.takeWhile isBareChar) :: read (t.dropWhile isBareChar)
termination_by t => t.length
decreasing_by
  · have := (List.dropWhile_sublist (fun c => c != ']') (l := t)).length_le
    simp only [List.length_cons, List.length_tail]
    omega
  · simp only [List.length_cons]
    omega
  · simp only [List.length_cons]
    omega
  · simp only [List.length_cons]
    omega
  · have := (List.dropWhile_sublist isBareChar (l := t)).length_le
    simp only [List.length_cons]
    omega

end PathPiece

namespace Path

/-- The segments of pieces among which no further parent marker may stand, each with whether it
stood in brackets. -/
def segmentsOf (source : Text) : List PathPiece → Except SyntaxFault (List (Text × Bool))
  | [] => .ok []
  | .parent :: _ => .error (.parentAfterSegment source)
  | .unclosed :: _ => .error (.unclosedBracket source)
  | .bare text :: rest => (segmentsOf source rest).map ((text, false) :: ·)
  | .bracketed text :: rest => (segmentsOf source rest).map ((text, true) :: ·)

/-- The number of leading parent markers and the pieces behind them. -/
def splitParents : List PathPiece → Nat × List PathPiece
  | .parent :: rest => ((splitParents rest).1 + 1, (splitParents rest).2)
  | pieces => (0, pieces)

/-- Drops a bare `this` at the front. -/
def dropThis : List (Text × Bool) → List (Text × Bool)
  | (['t', 'h', 'i', 's'], false) :: rest => rest
  | segments => segments

/-- Reads a path. -/
def parse (source : Text) : Except SyntaxFault Path :=
  let body := Text.stripPrefix? ['@'] source
  let (depth, pieces) := splitParents (PathPiece.read (body.getD source))
  match segmentsOf source pieces with
  | .error fault => .error fault
  | .ok segments =>
    if body.isSome then
      if segments.isEmpty then .error (.emptyDataPath source)
      else .ok ⟨source, segments.map (·.1), depth, true⟩
    else .ok ⟨source, (dropThis segments).map (·.1), depth, false⟩

end Path

end Stencil
