import Stencil.Frame
import Stencil.Proofs.Except
import Stencil.Proofs.Path

/-!
# Scopes that are entered and left again

A parent marker in front of a path takes back the entering of a scope: in the frame that was entered
the path leads where it led before.  A data path without markers looks through all scopes, and
entering one changes what it finds only if the new scope has a variable of that name; the root is
the same everywhere.  `Frame.resolve_push` says so for the text of a path, which it prefixes with
`../`, and for its resolution in every frame, strict or not.
-/

set_option autoImplicit false

namespace Stencil

namespace Path

open PathPiece

/-- The path that leads to the same place from a scope entered from here. -/
def fromChild (p : Path) : Path :=
  { p with source := markers 1 ++ p.source, depth := p.depth + 1 }

@[simp] theorem segments_fromChild (p : Path) : p.fromChild.segments = p.segments := rfl

@[simp] theorem depth_fromChild (p : Path) : p.fromChild.depth = p.depth + 1 := rfl

@[simp] theorem isData_fromChild (p : Path) : p.fromChild.isData = p.isData := rfl

/-- A segment is the same segment in every text. -/
theorem segmentsOf_of_eq_ok {source : Text} {pieces : List PathPiece}
    {segments : List (Text × Bool)} (h : segmentsOf source pieces = .ok segments)
    (other : Text) : segmentsOf other pieces = .ok segments := by
  induction pieces generalizing segments with
  | nil => exact h
  | cons piece pieces ih =>
    cases piece with
    | parent => exact nomatch h
    | unclosed => exact nomatch h
    | bare text | bracketed text =>
      rw [segmentsOf, Except.map_eq_ok] at h ⊢
      obtain ⟨rest, hrest, rfl⟩ := h
      exact ⟨rest, ih hrest, rfl⟩

/-- **A parent marker in front of a path** leaves one scope more. -/
theorem parse_markers_append {s : Text} {p : Path} (h : parse s = .ok p)
    (hat : s.head? ≠ some '@') : parse (markers 1 ++ s) = .ok p.fromChild := by
  have hhere := @parse_front false 0 _ s _ (fun _ _ => hat) rfl
  have hthere := @parse_front false 1 _ s _ (fun _ _ => hat) rfl
  rw [show front false 0 ++ s = s from rfl, h] at hhere
  obtain ⟨segments, hsegments, hp⟩ := Except.bind_eq_ok.1 hhere.symm
  obtain rfl := Except.ok.inj hp
  rw [show front false 1 ++ s = markers 1 ++ s from rfl, segmentsOf_of_eq_ok hsegments] at hthere
  exact hthere

/-- A data path names a variable. -/
theorem exists_segments_of_parse {s : Text} {p : Path} (h : parse s = .ok p)
    (hdata : p.isData = true) : ∃ name rest, p.segments = name :: rest := by
  simp only [parse] at h
  split at h
  · exact absurd h (by simp)
  · next segments _ =>
    split at h
    · cases segments with
      | nil => exact absurd h (by simp)
      | cons first rest =>
        obtain rfl := Except.ok.inj h
        exact ⟨first.1, rest.map (·.1), rfl⟩
    · obtain rfl := Except.ok.inj h
      exact absurd hdata (by simp)

end Path

/-- An error of resolution as it is reported from a scope further in. -/
def TemplateError.fromChild : TemplateError → TemplateError
  | .undefinedVariable path segment => .undefinedVariable (Path.markers 1 ++ path) segment
  | .pastRoot path depth => .pastRoot (Path.markers 1 ++ path) (depth + 1)
  | e => e

namespace Frame

variable (f : Frame) (v : Value) (locals bindings : Table Value)

theorem found_fromChild (p : Path) (strict : Bool) (segment : Text) (w : Value) :
    found p.fromChild strict segment w =
      (found p strict segment w).mapError TemplateError.fromChild := by
  rw [found, found]
  split <;> rfl

theorem follow_fromChild (p : Path) (strict : Bool) (w : Value) (segments : List Text) :
    follow p.fromChild strict w segments =
      (follow p strict w segments).mapError TemplateError.fromChild := by
  induction segments generalizing w with
  | nil => rfl
  | cons segment rest ih =>
    rw [follow, follow, found_fromChild]
    cases found p strict segment (w.field segment) with
    | error e => rfl
    | ok u => exact ih u

/-- **A parent marker takes back the entering of a scope.** -/
theorem resolve_push_fromChild (p : Path) (strict : Bool) :
    (f.push v locals bindings).resolve p.fromChild strict =
      (f.resolve p strict).mapError TemplateError.fromChild := by
  have hup : ancestor? (p.depth + 1) (f.push v locals bindings) = ancestor? p.depth f := rfl
  rw [resolve, resolve, Path.depth_fromChild, hup, Path.segments_fromChild]
  cases ancestor? p.depth f with
  | none => rfl
  | some g =>
    cases p.segments with
    | nil => rfl
    | cons segment rest =>
      simp only [Path.isData_fromChild, found_fromChild]
      cases found p strict segment (g.start p.isData segment) with
      | error e => rfl
      | ok w => exact follow_fromChild p strict w rest

/-- Entering a scope hides no variable but those that the scope has. -/
theorem variableNamed_push {name : Text}
    (h : name = ['r', 'o', 'o', 't'] ∨ Table.get? locals name = none) :
    (f.push v locals bindings).variableNamed name = f.variableNamed name := by
  have hroot : (f.push v locals bindings).rootValue = f.rootValue := rfl
  have hscopes : (f.push v locals bindings).scopes = ⟨v, locals, bindings⟩ :: f.scopes := rfl
  rw [variableNamed, variableNamed, hroot]
  split
  · rfl
  · next hname => rw [hscopes, List.findSome?_cons, h.resolve_left hname]

/-- A data path without markers leads to the same place from a scope that does not have its
variable. -/
theorem resolve_push_of_isData {p : Path} (hdata : p.isData = true) (hdepth : p.depth = 0)
    {name : Text} {rest : List Text} (hsegments : p.segments = name :: rest)
    (h : name = ['r', 'o', 'o', 't'] ∨ Table.get? locals name = none) (strict : Bool) :
    (f.push v locals bindings).resolve p strict = f.resolve p strict := by
  have hstart : (f.push v locals bindings).start true name = f.start true name :=
    variableNamed_push f v locals bindings h
  simp only [resolve, hdepth, ancestor?, hsegments, hdata, hstart]

/-- **Parent markers take back the entering of scopes.**

* Behind `../`, a path that does not begin with an `@` has the same segments and leaves one scope
  more.  From a scope entered in a frame it leads where the path itself leads from the frame: to the
  same value, or nowhere for the same segment, or past the root from both.
* A data path that leaves no scope leads to the same place from a scope entered in a frame as from
  the frame if it begins with the name of the root, or with a name that the scope entered does not
  have. -/
theorem resolve_push :
    (∀ (s : Text) (p : Path), Path.parse s = .ok p → s.head? ≠ some '@' →
      Path.parse ('.' :: '.' :: '/' :: s) = .ok p.fromChild ∧
      ∀ (f : Frame) (v : Value) (locals bindings : Table Value) (strict : Bool),
        (f.push v locals bindings).resolve p.fromChild strict =
          (f.resolve p strict).mapError TemplateError.fromChild) ∧
    ∀ (s : Text) (p : Path), Path.parse s = .ok p → p.isData = true → p.depth = 0 →
      ∃ name rest, p.segments = name :: rest ∧
        ∀ (f : Frame) (v : Value) (locals bindings : Table Value) (strict : Bool),
          name = ['r', 'o', 'o', 't'] ∨ Table.get? locals name = none →
            (f.push v locals bindings).resolve p strict = f.resolve p strict := by
  constructor
  · intro s p hparse hat
    exact ⟨Path.parse_markers_append hparse hat, fun f v locals bindings strict =>
      resolve_push_fromChild f v locals bindings p strict⟩
  · intro s p hparse hdata hdepth
    obtain ⟨name, rest, hsegments⟩ := Path.exists_segments_of_parse hparse hdata
    exact ⟨name, rest, hsegments, fun f v locals bindings strict h =>
      resolve_push_of_isData f v locals bindings hdata hdepth hsegments h strict⟩

/-- A marker leads past a binding of the scope entered, the root is found through that scope, and so
is the lack of a variable. -/
theorem resolve_push_shadowed :
    let f := Frame.root (.map [(.text ['a'], .int 1)])
    let g := f.push .null [(['k'], .int 2)] [(['a'], .int 3)]
    Path.parse "../a".toList = .ok ⟨"../a".toList, [['a']], 1, false⟩ ∧
      g.resolve ⟨"../a".toList, [['a']], 1, false⟩ true = .ok (.int 1) ∧
      g.resolve ⟨"@root.a".toList, ["root".toList, ['a']], 0, true⟩ true = .ok (.int 1) ∧
      g.resolve ⟨"@n".toList, [['n']], 0, true⟩ true =
        .error (.undefinedVariable "@n".toList ['n']) := by
  intro f g
  have ha : Path.parse "a".toList = .ok ⟨"a".toList, [['a']], 0, false⟩ := by decide +kernel
  have hroot : Path.parse "@root.a".toList =
      .ok ⟨"@root.a".toList, ["root".toList, ['a']], 0, true⟩ := by decide +kernel
  have hn : Path.parse "@n".toList = .ok ⟨"@n".toList, [['n']], 0, true⟩ := by decide +kernel
  obtain ⟨hup, hmarker⟩ := resolve_push.1 _ _ ha (by decide)
  obtain ⟨_, _, hsegments, hsame⟩ := resolve_push.2 _ _ hroot rfl rfl
  obtain ⟨rfl, rfl⟩ := List.cons.inj hsegments
  obtain ⟨_, _, hsegments, hsame'⟩ := resolve_push.2 _ _ hn rfl rfl
  obtain ⟨rfl, rfl⟩ := List.cons.inj hsegments
  exact ⟨hup, (hmarker f _ _ _ true).trans rfl, (hsame f _ _ _ true (.inl rfl)).trans rfl,
    (hsame' f _ _ _ true (.inr rfl)).trans rfl⟩

end Frame

end Stencil
