import Stencil.Text.Basic

/-!
# Paths of files

A file path is a root and a list of components.  Empty components and single dots mean nothing and
are left out when a path is read; double dots are kept, because what they mean depends on the
directories around them, until `FilePath.normalize` lets each cancel the component before it.

No file has a null character in its path (`FilePath.hasNull`).  A path that has one can be read and
joined, but whoever looks for a file has to refuse it before.
-/

set_option autoImplicit false

namespace Stencil

/-- A path of a file or directory. -/
structure FilePath where
  /-- The slashes that it starts with: none, one or two. -/
  root : Text
  /-- The components behind the root. -/
  components : List Text
deriving DecidableEq, Repr

namespace FilePath

/-- The component that stands for the directory above. -/
def up : Text := ['.', '.']

/-- The texts between the slashes of a text. -/
def splitSlashes : Text → List Text
  | [] => [[]]
  | c :: t =>
    if c = '/' then [] :: splitSlashes t
    else
      match splitSlashes t with
      | [] => [[c]]
      | first :: rest => (c :: first) :: rest

/-- The root of the path that a text writes.  Exactly two slashes are a root of their own. -/
def rootOf : Text → Text
  | '/' :: '/' :: '/' :: _ => ['/']
  | '/' :: '/' :: _ => ['/', '/']
  | '/' :: _ => ['/']
  | _ => []

/-- Reads a path. -/
def parse (t : Text) : FilePath where
  root := rootOf t
  components := (splitSlashes t).filter fun c => c ≠ [] ∧ c ≠ ['.']

/-- Whether a path does not depend on a directory. -/
def isAbsolute (p : FilePath) : Bool :=
  !p.root.isEmpty

/-- Whether a path has a null character, so that it cannot be that of a file. -/
def hasNull (p : FilePath) : Bool :=
  p.components.any fun c => c.contains '\x00'

/-- The text of a path; a path without root and components is a single dot. -/
def toText (p : FilePath) : Text :=
  if p.root = [] ∧ p.components = [] then ['.']
  else p.root ++ Text.join ['/'] p.components

/-- The path `p` as seen from the directory `base`. -/
def join (base p : FilePath) : FilePath :=
  if p.isAbsolute then p else { base with components := base.components ++ p.components }

/-- The directory of a path. -/
def parent (p : FilePath) : FilePath :=
  { p with components := p.components.dropLast }

/-- The paths on the way to a path, from its root on, without the path itself. -/
def stages (p : FilePath) : List FilePath :=
  (List.range p.components.length).map fun n => { p with components := p.components.take n }

/-- The last component. -/
def name (p : FilePath) : Text :=
  p.components.getLast?.getD []

/-- The last component without what follows its last dot, if there is something on both sides of
the dot. -/
def stem (p : FilePath) : Text :=
  let extension := Text.takeEndWhile (· != '.') p.name
  let front := (Text.dropEndWhile (· != '.') p.name).dropLast
  if front = [] ∨ extension = [] then p.name else front

/-- Adds a component to a path without double dots. -/
def enter (components : List Text) (c : Text) : List Text :=
  if c = up then components.dropLast else components ++ [c]

/-- The path in which every double dot has cancelled the component before it.  Above the root there
is nothing, and two slashes lead to the same root as one. -/
def normalize (p : FilePath) : FilePath where
  root := p.root.take 1
  components := p.components.foldl enter []

/-- The normalized path as seen from the directory `base`. -/
def resolve (base p : FilePath) : FilePath :=
  (base.join p).normalize

/-- Whether a path leads to a directory or to something below it, by its components alone. -/
def isWithin (directory p : FilePath) : Bool :=
  p.root = directory.root && directory.components.isPrefixOf p.components

end FilePath

end Stencil
