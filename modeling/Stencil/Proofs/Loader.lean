import Stencil.Loader
import Stencil.Proofs.FilePath

/-!
# A loader stays in its directory

A name is any text, and so is the suffix: together they may begin with a slash, lead up from the
directory and down again, or complete a double dot where they meet.  `FileLoader.resolve?_within`
says that none of this leads out.  What a name is resolved to is a path of names only that begins
with the components of the directory, and not just with their text; a name is refused only if what
its components come to does not lie there.  So whatever text the loader answers is that of a file
below the directory.

`FilePath.resolve_parse` is the reason: reading a path and normalizing it, as seen from a directory,
comes to what the components settle to.
-/

set_option autoImplicit false

namespace Stencil

namespace FilePath

/-- A path from the root in which every component means something. -/
structure FromRoot (p : FilePath) : Prop where
  /-- It begins with a slash. -/
  root : p.root.take 1 = ['/']
  /-- No component is left out when the path is read. -/
  counts : ∀ c ∈ p.components, counts c = true
  /-- Every component is a single one. -/
  slash_not_mem : ∀ c ∈ p.components, '/' ∉ c

theorem fromRoot_parse (t : Text) : (parse ('/' :: t)).FromRoot where
  root := root_parse_cons t
  counts _ hc := (List.mem_filter.1 hc).2
  slash_not_mem _ hc := slash_not_mem_of_mem_splitSlashes (List.mem_filter.1 hc).1

/-- The components, from the root, that a text writes as seen from a directory. -/
def componentsFrom (base : List Text) (t : Text) : List Text :=
  if t.head? = some '/' then splitSlashes t else base ++ splitSlashes t

theorem slash_not_mem_componentsFrom {base : List Text} (hbase : ∀ c ∈ base, '/' ∉ c) (t : Text) :
    ∀ c ∈ componentsFrom base t, '/' ∉ c := by
  intro c hc
  rw [componentsFrom] at hc
  split at hc
  · exact slash_not_mem_of_mem_splitSlashes hc
  · rcases List.mem_append.1 hc with hc | hc
    · exact hbase c hc
    · exact slash_not_mem_of_mem_splitSlashes hc

/-- **What a path is resolved to** is what its components settle to. -/
theorem resolve_parse {base : FilePath} (h : base.FromRoot) (t : Text) :
    (base.resolve (parse t)).root = ['/'] ∧
      Settles (componentsFrom base.components t) (base.resolve (parse t)).components := by
  rw [settles_iff (slash_not_mem_componentsFrom h.slash_not_mem t), componentsFrom, resolve, join]
  by_cases hslash : t.head? = some '/'
  · obtain ⟨rest, rfl⟩ := List.head?_eq_some_iff.1 hslash
    rw [if_pos hslash, if_pos ((isAbsolute_parse _).2 hslash)]
    exact ⟨root_parse_cons rest, (normalize_components _).symm⟩
  · rw [if_neg hslash, if_neg (mt (isAbsolute_parse t).1 hslash), settle, List.filter_append,
      List.filter_eq_self.2 h.counts]
    exact ⟨h.root, rfl⟩

end FilePath

open FilePath

namespace FileLoader

/-- The directory of a loader is what the text of it settles to as seen from the working
directory. -/
theorem base_ofDirectory {tree : FileTree} {cwd : Text}
    (hcwd : tree.directory = .parse ('/' :: cwd)) (directory suffix : Text) :
    (ofDirectory tree (.parse directory) suffix).base.root = ['/'] ∧
      Settles (componentsFrom tree.directory.components directory)
        (ofDirectory tree (.parse directory) suffix).base.components :=
  FilePath.resolve_parse (hcwd ▸ fromRoot_parse cwd) directory

theorem fromRoot_base {tree : FileTree} {cwd : Text}
    (hcwd : tree.directory = .parse ('/' :: cwd)) (directory suffix : Text) :
    (ofDirectory tree (.parse directory) suffix).base.FromRoot := by
  obtain ⟨hroot, hsettles⟩ := base_ofDirectory hcwd directory suffix
  exact ⟨by rw [hroot]; rfl, fun c hc => (hsettles.isName c hc).counts,
    fun c hc => (hsettles.isName c hc).slash_not_mem⟩

/-- A loader answers the text of the file that a name is resolved to. -/
theorem load_eq_some_iff {l : FileLoader} {tree : FileTree} {name t : Text} :
    (l.load tree name).2 = some t ↔
      ∃ p, l.resolve? name = some p ∧ tree.textAt? p = some t := by
  rw [load, locate]
  cases l.resolve? name with
  | none => simp
  | some p => cases h : tree.textAt? p <;> simp [h]

/-- A path lies within a directory if it has the same root and begins with the components. -/
theorem isWithin_iff {directory p : FilePath} :
    directory.isWithin p = true ↔
      p.root = directory.root ∧ directory.components <+: p.components := by
  rw [isWithin, Bool.and_eq_true, decide_eq_true_eq, List.isPrefixOf_iff_prefix]

section Resolving

variable {l : FileLoader} {name : Text}

/-- A name is resolved to the path that its components and those of the suffix settle to, if that
lies in the directory. -/
theorem resolve?_eq_some_iff (hfrom : l.base.FromRoot) (hroot : l.base.root = ['/'])
    {p : FilePath} :
    l.resolve? name = some p ↔ p.root = ['/'] ∧
      Settles (componentsFrom l.base.components (name ++ l.suffix)) p.components ∧
      l.base.components <+: p.components := by
  have hslash := slash_not_mem_componentsFrom hfrom.slash_not_mem (name ++ l.suffix)
  obtain ⟨hfound, hsettles⟩ := FilePath.resolve_parse hfrom (name ++ l.suffix)
  have hresolve : l.resolve? name =
      if l.base.isWithin (l.base.resolve (.parse (name ++ l.suffix))) then
        some (l.base.resolve (.parse (name ++ l.suffix))) else none := rfl
  rw [hresolve, Option.ite_none_right_eq_some, Option.some.injEq, isWithin_iff, hroot]
  constructor
  · rintro ⟨⟨-, hprefix⟩, rfl⟩
    exact ⟨hfound, hsettles, hprefix⟩
  · rintro ⟨hproot, hpsettles, hprefix⟩
    -- the components settle to one list only
    rw [settles_iff hslash] at hsettles hpsettles
    have hsame : l.base.resolve (.parse (name ++ l.suffix)) = p := by
      rw [FilePath.mk.injEq]
      exact ⟨hfound.trans hproot.symm, hsettles.symm.trans hpsettles⟩
    exact ⟨⟨hfound, hsame ▸ hprefix⟩, hsame⟩

/-- A name that does not begin with a slash is refused for nothing but the place that it leads
to. -/
theorem resolve?_eq_none_iff (hfrom : l.base.FromRoot) (hroot : l.base.root = ['/'])
    (hhead : (name ++ l.suffix).head? ≠ some '/') :
    l.resolve? name = none ↔ ∃ names,
      Settles (l.base.components ++ splitSlashes (name ++ l.suffix)) names ∧
        ¬ l.base.components <+: names := by
  have hslash := slash_not_mem_componentsFrom hfrom.slash_not_mem (name ++ l.suffix)
  obtain ⟨hfound, hsettles⟩ := FilePath.resolve_parse hfrom (name ++ l.suffix)
  have hcomponents : componentsFrom l.base.components (name ++ l.suffix) =
      l.base.components ++ splitSlashes (name ++ l.suffix) := if_neg hhead
  rw [← hcomponents]
  constructor
  · intro hnone
    refine ⟨_, hsettles, fun hprefix => ?_⟩
    have hsome := (resolve?_eq_some_iff hfrom hroot).2 ⟨hfound, hsettles, hprefix⟩
    exact absurd (hnone.symm.trans hsome) nofun
  · rintro ⟨names, hnames, hprefix⟩
    rw [Option.eq_none_iff_forall_ne_some]
    intro p hp
    obtain ⟨-, hpsettles, hpprefix⟩ := (resolve?_eq_some_iff hfrom hroot).1 hp
    rw [settles_iff hslash] at hnames hpsettles
    exact hprefix (hnames ▸ hpsettles ▸ hpprefix)

/-- What is answered for a name is the text of a file below the directory, unless the directory is a
file itself. -/
theorem exists_below_of_load {tree : FileTree} (hfrom : l.base.FromRoot)
    (hroot : l.base.root = ['/']) {t : Text} (ht : (l.load tree name).2 = some t) :
    ∃ below, l.resolve? name = some ⟨['/'], l.base.components ++ below⟩ ∧
      tree.textAt? ⟨['/'], l.base.components ++ below⟩ = some t ∧
      (tree.textAt? l.base = none → below ≠ []) := by
  obtain ⟨p, hp, htext⟩ := load_eq_some_iff.1 ht
  obtain ⟨hproot, -, below, hbelow⟩ := (resolve?_eq_some_iff hfrom hroot).1 hp
  obtain rfl : p = ⟨['/'], l.base.components ++ below⟩ := by
    rw [FilePath.mk.injEq]
    exact ⟨hproot, hbelow.symm⟩
  refine ⟨below, hp, htext, fun hdirectory hnil => ?_⟩
  have hsame : (⟨['/'], l.base.components ++ below⟩ : FilePath) = l.base := by
    rw [FilePath.mk.injEq, hnil, List.append_nil]
    exact ⟨hroot.symm, rfl⟩
  rw [hsame, hdirectory] at htext
  exact absurd htext nofun

end Resolving

/-- **A loader stays in its directory.**  Whatever texts the directory, the suffix and the name are:

* what a name is resolved to is a path from the root, of names only, that begins with the
  components of the directory;
* it is what the components of the name and the suffix settle to as seen from the directory, and a
  name is resolved if that lies in the directory;
* so a name that does not begin with a slash is refused if and only if what the components of the
  directory, the name and the suffix settle to does not begin with those of the directory;
* the text that is answered for a name is that of a file with such a path, which lies below the
  directory unless the directory is a file itself. -/
theorem resolve?_within {tree : FileTree} {cwd : Text}
    (hcwd : tree.directory = .parse ('/' :: cwd)) (directory suffix name : Text) :
    let l := ofDirectory tree (.parse directory) suffix
    let base := l.base.components
    (l.base.root = ['/'] ∧
      Settles (componentsFrom tree.directory.components directory) base) ∧
    (∀ p, l.resolve? name = some p →
      p.root = ['/'] ∧ (∀ c ∈ p.components, IsName c) ∧ base <+: p.components) ∧
    (∀ p, l.resolve? name = some p ↔ p.root = ['/'] ∧
      Settles (componentsFrom base (name ++ suffix)) p.components ∧ base <+: p.components) ∧
    ((name ++ suffix).head? ≠ some '/' → (l.resolve? name = none ↔
      ∃ names, Settles (base ++ splitSlashes (name ++ suffix)) names ∧ ¬ base <+: names)) ∧
    ∀ t, (l.load tree name).2 = some t → ∃ below,
      l.resolve? name = some ⟨['/'], base ++ below⟩ ∧
      tree.textAt? ⟨['/'], base ++ below⟩ = some t ∧
      (tree.textAt? l.base = none → below ≠ []) := by
  intro l base
  have hbase := base_ofDirectory hcwd directory suffix
  have hfrom := fromRoot_base hcwd directory suffix
  refine ⟨hbase, fun p hp => ?_, fun p => resolve?_eq_some_iff hfrom hbase.1,
    resolve?_eq_none_iff hfrom hbase.1, fun t => exists_below_of_load hfrom hbase.1⟩
  obtain ⟨hroot, hsettles, hprefix⟩ := (resolve?_eq_some_iff hfrom hbase.1).1 hp
  exact ⟨hroot, hsettles.isName, hprefix⟩

/-- A suffix completes the double dot that a name begins.  Where that leads up from the directory
the name is refused, and where it leads back from a component of the name the file is found. -/
theorem resolve?_within_completed_up :
    let tree : FileTree := ⟨.parse "/w".toList, [(.parse "/w/b/t".toList, ['x'])], []⟩
    let l := ofDirectory tree (.parse ['b']) "./t".toList
    tree.directory = .parse ('/' :: ['w']) ∧ l.resolve? ['.'] = none ∧
      (l.load tree "s/.".toList).2 = some ['x'] ∧ ∃ below, below ≠ [] ∧
        l.resolve? "s/.".toList = some ⟨['/'], [['w'], ['b']] ++ below⟩ := by
  intro tree l
  have hcwd : tree.directory = .parse ('/' :: ['w']) := rfl
  obtain ⟨-, -, -, hrefused, -⟩ := resolve?_within hcwd ['b'] "./t".toList ['.']
  obtain ⟨-, -, -, -, hload⟩ := resolve?_within hcwd ['b'] "./t".toList "s/.".toList
  have htext : (l.load tree "s/.".toList).2 = some ['x'] := by decide +kernel
  obtain ⟨below, hresolve, -, hbelow⟩ := hload ['x'] htext
  have hsettles : Settles (l.base.components ++ splitSlashes "../t".toList) [['w'], ['t']] :=
    (settles_iff (by decide)).2 (by decide)
  exact ⟨hcwd, (hrefused (by decide)).2 ⟨_, hsettles, by decide⟩, htext, below,
    hbelow (by decide), hresolve⟩

end FileLoader

end Stencil
