import Stencil.FilePath
import Stencil.Log
import Stencil.Table
import Stencil.Text.Line

/-!
# Loaders

A loader knows templates by name.  A map loader holds them in memory.  A file loader looks for
`NAME + suffix` below a directory, and a name that leads out of the directory is unknown to it,
however the name spells the way.  A name with a null character cannot be looked for among files at
all, and looking for it raises an error that is none of templates (`Loader.fault?`).  So may any
loader that is written for a program.

Files are seen through a `FileTree`: the texts of the files that exist, by their normalized paths.
A file that exists and cannot be read, or is no text, has no counterpart in it.  Loading such a file
raises an error of the same sort, and a loader that does so is a `Loader.custom`.
-/

set_option autoImplicit false

namespace Stencil

/-- A directory tree, as far as it matters. -/
structure FileTree where
  /-- The working directory. -/
  directory : FilePath
  /-- The files with their texts, by their normalized paths. -/
  files : List (FilePath × Text) := []
  /-- Other directories, by their normalized paths. -/
  directories : List FilePath := []

namespace FileTree

/-- The text of the file at a normalized path. -/
def textAt? (tree : FileTree) (p : FilePath) : Option Text :=
  (tree.files.find? fun (q, _) => q = p).map fun (_, t) => Text.unifyLineBreaks t

/-- Whether a normalized path leads to a directory. -/
def isDirectory (tree : FileTree) (p : FilePath) : Bool :=
  p.isWithin tree.directory || tree.directories.contains p

/-- The place that components lead to from a directory, if everything on the way is a directory. -/
def walk? (tree : FileTree) (place : FilePath) : List Text → Option FilePath
  | [] => some place
  | c :: rest =>
    if tree.isDirectory place then
      walk? tree { place with components := FilePath.enter place.components c } rest
    else none

/-- The text of the file that a path leads to. -/
def read? (tree : FileTree) (p : FilePath) : Option Text :=
  let p := tree.directory.join p
  (tree.walk? ⟨p.root.take 1, []⟩ p.components).bind tree.textAt?

/-- The tree with one more file, and with all directories on the way to it. -/
def add (tree : FileTree) (p : FilePath) (t : Text) : FileTree :=
  let p := tree.directory.join p
  { tree with
    files := (p.normalize, t) :: tree.files.filter fun (q, _) => q ≠ p.normalize
    directories := p.stages.map FilePath.normalize ++ tree.directories }

end FileTree

/-- A loader of templates below a directory. -/
structure FileLoader where
  /-- The directory, as a normalized path. -/
  base : FilePath
  /-- What is added to a name to make the name of a file. -/
  suffix : Text

namespace FileLoader

/-- The loader for a directory that is given as seen from the working directory of a tree. -/
def ofDirectory (tree : FileTree) (directory : FilePath) (suffix : Text) : FileLoader :=
  ⟨tree.directory.resolve directory, suffix⟩

/-- The normalized path of the file for a name, if that lies in the directory. -/
def resolve? (l : FileLoader) (name : Text) : Option FilePath :=
  let p := l.base.resolve (.parse (name ++ l.suffix))
  if l.base.isWithin p then some p else none

/-- The path of the file for a name, and what the log should say about it. -/
def locate (l : FileLoader) (name : Text) : List Event × Option FilePath :=
  match l.resolve? name with
  | none => ([.outside name l.base.toText], none)
  | some p => ([], some p)

/-- The text of a template and what the log should say about it. -/
def load (l : FileLoader) (tree : FileTree) (name : Text) : List Event × Option Text :=
  match l.locate name with
  | (events, none) => (events, none)
  | (events, some p) =>
    match tree.textAt? p with
    | none => (events, none)
    | some t => (events ++ [.loading name p.toText], some t)

end FileLoader

/-- A source of templates by name. -/
inductive Loader where
  /-- Templates in memory. -/
  | map (templates : Table Text)
  /-- Templates in files. -/
  | files (loader : FileLoader) (tree : FileTree)
  /-- Templates from elsewhere: a name may be unknown, or asking for it may raise an error. -/
  | custom (answer : Text → Except ForeignError (Option Text))

namespace Loader

/-- What looking for a template raises, if it does not come to an answer. -/
def fault? : Loader → Text → Option ForeignError
  | .map _, _ => none
  | .files loader _, name =>
    if (name ++ loader.suffix).contains '\x00' then some ⟨"ValueError", "embedded null byte"⟩
    else none
  | .custom answer, name =>
    match answer name with
    | .ok _ => none
    | .error e => some e

/-- The text of a template and what the log should say about it. -/
def load (l : Loader) (name : Text) : List Event × Option Text :=
  match l with
  | .map templates => ([], Table.get? templates name)
  | .files loader tree => if (l.fault? name).isSome then ([], none) else loader.load tree name
  | .custom answer => ([], (answer name).toOption.join)

/-- Where looking for a template raises an error, nothing is found and nothing logged. -/
theorem load_of_fault? {l : Loader} {name : Text} {e : ForeignError} (h : l.fault? name = some e) :
    l.load name = ([], none) := by
  cases l with
  | map templates => exact absurd h nofun
  | files files tree => rw [load, h]; rfl
  | custom answer =>
    rw [fault?] at h
    rw [load]
    cases hanswer : answer name with
    | ok source => rw [hanswer] at h; exact absurd h nofun
    | error e => rfl

/-- A loader logs that a name leads out of its directory, and then has no source, or the file that
it reads. -/
theorem eq_of_mem_load {l : Loader} {name : Text} {e : Event} (h : e ∈ (l.load name).1) :
    (∃ name directory, e = .outside name directory) ∧ (l.load name).2 = none ∨
      ∃ name path, e = .loading name path := by
  cases l with
  | map templates => exact absurd h List.not_mem_nil
  | custom answer => exact absurd h List.not_mem_nil
  | files files tree =>
    rw [load] at h ⊢
    split at h
    · exact absurd h List.not_mem_nil
    · next hfault =>
    rw [if_neg hfault]
    rw [FileLoader.load, FileLoader.locate] at h ⊢
    cases hresolve : files.resolve? name with
    | none =>
      rw [hresolve] at h
      exact .inl ⟨⟨_, _, List.mem_singleton.1 h⟩, rfl⟩
    | some path =>
      rw [hresolve] at h
      dsimp only at h
      cases htext : tree.textAt? path with
      | none =>
        rw [htext] at h
        exact absurd h List.not_mem_nil
      | some text =>
        rw [htext] at h
        exact .inr ⟨_, _, List.mem_singleton.1 h⟩

/-- The loader with one more template, if it holds templates in memory. -/
def define : Loader → Text → Text → Loader
  | .map templates, name, source => .map (Table.insert templates name source)
  | loader, _, _ => loader

end Loader

end Stencil
