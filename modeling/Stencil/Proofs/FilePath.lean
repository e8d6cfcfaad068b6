import Mathlib.Data.List.Infix
import Mathlib.Logic.Relation
import Stencil.FilePath

/-!
# Where a path leads

What a path means can be said without going along it: an empty component and a single dot mean
nothing, a double dot cancels the component before it, and at the root it means nothing either.
`FilePath.Cancels` is one such step, taken anywhere in the list of components, and
`FilePath.Settles` says that steps in some order lead to a list that names only.

The order does not matter, because every step keeps what going along the path comes to.  So there
is exactly one list of names that the components settle to (`FilePath.settles_iff`), and it is the
one that `FilePath.normalize` computes (`FilePath.normalize_components`).
-/

set_option autoImplicit false

namespace Stencil.FilePath

/-! ## Names -/

/-- A component that names a file or directory. -/
structure IsName (c : Text) : Prop where
  /-- It is not empty. -/
  ne_nil : c ≠ []
  /-- It does not stand for the directory that it is in. -/
  ne_dot : c ≠ ['.']
  /-- It does not stand for the directory above. -/
  ne_up : c ≠ up
  /-- It is a single component. -/
  slash_not_mem : '/' ∉ c

/-- Whether a component means something. -/
def counts (c : Text) : Bool :=
  c ≠ [] ∧ c ≠ ['.']

theorem IsName.counts {c : Text} (h : IsName c) : counts c = true :=
  decide_eq_true ⟨h.ne_nil, h.ne_dot⟩

theorem IsName.enter {c : Text} (h : IsName c) (components : List Text) :
    FilePath.enter components c = components ++ [c] :=
  if_neg h.ne_up

theorem slash_not_mem_of_mem_splitSlashes {t c : Text} (h : c ∈ splitSlashes t) : '/' ∉ c := by
  induction t generalizing c with
  | nil =>
    obtain rfl := List.mem_singleton.1 h
    exact List.not_mem_nil
  | cons a t ih =>
    rw [splitSlashes] at h
    split at h
    · rcases List.mem_cons.1 h with rfl | h
      · exact List.not_mem_nil
      · exact ih h
    · next ha =>
      split at h
      · obtain rfl := List.mem_singleton.1 h
        simpa using Ne.symm ha
      · next first rest hsplit =>
        rw [hsplit] at ih
        rcases List.mem_cons.1 h with rfl | h
        · exact List.not_mem_cons_of_ne_of_not_mem (Ne.symm ha) (ih List.mem_cons_self)
        · exact ih (List.mem_cons_of_mem _ h)

/-! ## Cancelling -/

/-- A component of a path is left out, alone or with the one before it, because the path leads to
the same place without. -/
inductive Cancels : List Text → List Text → Prop
  /-- An empty component or a single dot leads nowhere else. -/
  | void {c : Text} (hc : counts c = false) (front back : List Text) :
      Cancels (front ++ c :: back) (front ++ back)
  /-- A double dot leads back from the name before it. -/
  | up {c : Text} (hc : IsName c) (front back : List Text) :
      Cancels (front ++ c :: up :: back) (front ++ back)
  /-- Above the root there is nothing. -/
  | root (back : List Text) : Cancels (FilePath.up :: back) back

/-- What some components of a path from the root come to: they are left out as long as any can be,
in whatever order, and names are left. -/
structure Settles (components names : List Text) : Prop where
  /-- The others are left out. -/
  cancels : Relation.ReflTransGen Cancels components names
  /-- Only names are left. -/
  isName : ∀ c ∈ names, IsName c

theorem Cancels.append {cs ds : List Text} (h : Cancels cs ds) (more : List Text) :
    Cancels (cs ++ more) (ds ++ more) := by
  cases h with
  | void hc front back =>
    rw [List.append_assoc, List.append_assoc, List.cons_append]
    exact .void hc front (back ++ more)
  | up hc front back =>
    rw [List.append_assoc, List.append_assoc, List.cons_append, List.cons_append]
    exact .up hc front (back ++ more)
  | root => exact .root (ds ++ more)

/-! ## Going along a path -/

/-- The names that one comes to from the root by going along some components. -/
def settle (components : List Text) : List Text :=
  (components.filter counts).foldl enter []

theorem settle_concat (cs : List Text) (c : Text) :
    settle (cs ++ [c]) = if counts c then enter (settle cs) c else settle cs := by
  rw [settle, List.filter_append, List.foldl_append, ← settle]
  split
  · next hc => rw [List.filter_cons_of_pos hc]; rfl
  · next hc => rw [List.filter_cons_of_neg hc]; rfl

/-- Names stand for themselves. -/
theorem settle_of_isName {names : List Text} (h : ∀ c ∈ names, IsName c) :
    settle names = names := by
  induction names using List.reverseRecOn with
  | nil => rfl
  | append_singleton names c ih =>
    have hc := h c (List.mem_append_right _ List.mem_cons_self)
    rw [settle_concat, if_pos hc.counts, hc.enter,
      ih fun d hd => h d (List.mem_append_left _ hd)]

/-- **Leaving out a component does not change what one comes to.** -/
theorem Cancels.settle_eq {cs ds : List Text} (h : Cancels cs ds) : settle cs = settle ds := by
  cases h with
  | void hc front back =>
    rw [settle, settle, List.filter_append, List.filter_cons_of_neg (by simp [hc]),
      List.filter_append]
  | up hc front back =>
    have hup : counts FilePath.up = true := by decide
    rw [settle, settle, List.filter_append, List.filter_cons_of_pos hc.counts,
      List.filter_cons_of_pos hup, List.filter_append, List.foldl_append, List.foldl_append,
      List.foldl_cons, List.foldl_cons, hc.enter, FilePath.enter, if_pos rfl, List.dropLast_concat]
  | root back => rfl

theorem isName_of_mem_settle {cs : List Text} (h : ∀ c ∈ cs, '/' ∉ c) :
    ∀ c ∈ settle cs, IsName c := by
  induction cs using List.reverseRecOn with
  | nil => exact fun _ hc => absurd hc List.not_mem_nil
  | append_singleton cs c ih =>
    have hfront := ih fun d hd => h d (List.mem_append_left _ hd)
    have hslash := h c (List.mem_append_right _ List.mem_cons_self)
    rw [settle_concat]
    split
    · next hcounts =>
      rw [enter]
      split
      · exact fun d hd => hfront d (List.dropLast_subset _ hd)
      · next hup =>
        obtain ⟨hne, hdot⟩ := of_decide_eq_true hcounts
        intro d hd
        rcases List.mem_append.1 hd with hd | hd
        · exact hfront d hd
        · obtain rfl := List.mem_singleton.1 hd
          exact ⟨hne, hdot, hup, hslash⟩
    · exact hfront

/-- What one comes to is what is left when components are left out from the front on. -/
theorem cancels_settle {cs : List Text} (h : ∀ c ∈ cs, '/' ∉ c) :
    Relation.ReflTransGen Cancels cs (settle cs) := by
  induction cs using List.reverseRecOn with
  | nil => exact .refl
  | append_singleton cs c ih =>
    have hcs : ∀ d ∈ cs, '/' ∉ d := fun d hd => h d (List.mem_append_left _ hd)
    have hfront : Relation.ReflTransGen Cancels (cs ++ [c]) (settle cs ++ [c]) :=
      (ih hcs).lift (· ++ [c]) fun _ _ hstep => hstep.append [c]
    rw [settle_concat]
    split
    · rw [enter]
      split
      · next hup =>
        -- the last of the names before a double dot is cancelled, if there is one
        subst hup
        rcases List.eq_nil_or_concat' (settle cs) with hnil | ⟨names, d, hconcat⟩
        · rw [hnil] at hfront ⊢
          exact hfront.tail (.root [])
        · have hd : IsName d := isName_of_mem_settle hcs d (by simp [hconcat])
          rw [hconcat, List.append_assoc] at hfront
          rw [hconcat, List.dropLast_concat]
          have hstep := Cancels.up hd names []
          rw [List.append_nil] at hstep
          exact hfront.tail hstep
      · exact hfront
    · next hvoid =>
      have hstep := Cancels.void (Bool.eq_false_iff.2 hvoid) (settle cs) []
      rw [List.append_nil] at hstep
      exact hfront.tail hstep

/-- **Components settle to one list of names**, in whatever order they are left out. -/
theorem settles_iff {cs names : List Text} (h : ∀ c ∈ cs, '/' ∉ c) :
    Settles cs names ↔ settle cs = names := by
  constructor
  · rintro ⟨hcancels, hnames⟩
    rw [← settle_of_isName hnames]
    clear hnames
    induction hcancels with
    | refl => rfl
    | tail _ hstep ih => exact ih.trans hstep.settle_eq
  · rintro rfl
    exact ⟨cancels_settle h, isName_of_mem_settle h⟩

/-! ## Paths that are read -/

/-- The components of a normalized path are those that its text settles to. -/
theorem normalize_components (t : Text) :
    (parse t).normalize.components = settle (splitSlashes t) := by
  rw [normalize, parse, settle]
  exact congrArg (List.foldl enter []) (List.filter_congr fun c _ => rfl)

/-- A path that begins with a slash is read as one from the root. -/
theorem root_parse_cons (t : Text) : (parse ('/' :: t)).root.take 1 = ['/'] := by
  show (rootOf ('/' :: t)).take 1 = ['/']
  unfold rootOf
  split
  · rfl
  · rfl
  · rfl
  · next _ _ h => exact absurd rfl (h t)

theorem isAbsolute_parse (t : Text) : (parse t).isAbsolute = true ↔ t.head? = some '/' := by
  show (!(rootOf t).isEmpty) = true ↔ _
  unfold rootOf
  split
  · simp
  · simp
  · simp
  · next _ _ h =>
    -- a text that begins with a slash was met in the cases before
    cases t with
    | nil => simp
    | cons c t => simpa using fun hc : c = '/' => h t (by rw [hc])

end Stencil.FilePath
