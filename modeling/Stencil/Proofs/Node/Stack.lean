import Stencil.Proofs.Node.Derivation

/-!
# The stack of open sections

A closing tag takes sections from the stack until it comes to one that is not chained, and a
template that ends too early is reported by the innermost section that is not chained.  Both take it
for granted that there is such a section below every chained one.  `TreeBuilder.unwind?` takes from
the stack what is asked for, and has no answer if nothing is left.

The reason why this does not happen is that the stack is *grounded*: the outermost open section has
not been opened by an else tag (`OpenForest.isGrounded_builder`).  So whatever pieces have been
read, a closing tag finds its section and the end of the template finds one to report
(`TreeBuilder.holdsOut_of_foldlM`).
-/

set_option autoImplicit false

namespace Stencil

namespace TreeBuilder

/-- Closes the innermost section and the sections around it up to one that is not chained.  There is
no answer if the section that comes next is not there. -/
def unwind? : (inner : OpenBlock) → (outer : List OpenBlock) → Option (OpenBlock × List OpenBlock)
  | inner, [] => if inner.chained then none else some (inner, [])
  | inner, next :: outer =>
    if inner.chained then unwind? (next.push inner.toNode) outer else some (inner, next :: outer)

/-- The outermost of some open sections is not chained. -/
def IsGrounded (blocks : List OpenBlock) : Prop :=
  ∀ block ∈ blocks.getLast?, block.chained = false

/-- The stack of a builder has all that can be asked of it. -/
structure HoldsOut (b : TreeBuilder) : Prop where
  /-- A closing tag finds the section that it belongs to. -/
  unwind?_eq : ∀ inner outer, b.blocks = inner :: outer →
    unwind? inner outer = some (closeChain inner outer)
  /-- The end of the template finds a section to report. -/
  exists_unchained : b.blocks ≠ [] → ∃ block ∈ b.blocks, block.chained = false

theorem chained_push (b : OpenBlock) (node : Node) : (b.push node).chained = b.chained := by
  unfold OpenBlock.push
  split <;> rfl

/-- A section that gets another node stays where it is. -/
theorem IsGrounded.push {block : OpenBlock} {outer : List OpenBlock}
    (h : IsGrounded (block :: outer)) (node : Node) : IsGrounded (block.push node :: outer) := by
  cases outer with
  | nil =>
    rintro last hlast
    obtain rfl : block.push node = last := Option.some.inj hlast
    rw [chained_push]
    exact h block rfl
  | cons next outer => exact h

/-- **A grounded stack is never unwound to nothing.** -/
theorem unwind?_eq_of_isGrounded {inner : OpenBlock} {outer : List OpenBlock}
    (h : IsGrounded (inner :: outer)) : unwind? inner outer = some (closeChain inner outer) := by
  induction outer generalizing inner with
  | nil => rw [unwind?, if_neg (by simp [h inner rfl]), closeChain]
  | cons next outer ih =>
    rw [unwind?, closeChain]
    by_cases hchained : inner.chained
    · have hrest : IsGrounded (next :: outer) := h
      rw [if_pos hchained, if_pos hchained, ih (hrest.push _)]
    · rw [if_neg hchained, if_neg hchained]

end TreeBuilder

open TreeBuilder

/-- The stack of a forest with open sections is grounded: below the sections of a chain there is the
one that the chain belongs to. -/
theorem OpenForest.isGrounded_builder (P : OpenForest) : IsGrounded P.builder.blocks := by
  obtain ⟨root, opened⟩ := P
  induction opened with
  | nil => exact fun block hblock => absurd hblock (by simp [builder])
  | cons o outer ih =>
    have hblocks : (builder ⟨root, o :: outer⟩).blocks =
        o.blocks ++ (builder ⟨root, outer⟩).blocks := List.flatMap_cons
    cases hrest : (builder ⟨root, outer⟩).blocks with
    | cons next rest =>
      rw [hblocks, hrest]
      rw [hrest] at ih
      intro block hblock
      rw [List.getLast?_append_of_ne_nil _ (List.cons_ne_nil next rest)] at hblock
      exact ih block hblock
    | nil =>
      obtain ⟨inner, inverse, ho, -⟩ := o.tail.exists_blocks o.heading false o.body
      rw [hblocks, hrest, List.append_nil, OpenItem.blocks, ho]
      intro block hblock
      rw [List.getLast?_concat] at hblock
      obtain rfl := Option.some.inj hblock
      rfl

/-- **The stack holds out**, whatever pieces have been read. -/
theorem TreeBuilder.holdsOut_of_foldlM {pieces : List Piece} {b : TreeBuilder}
    (h : pieces.foldlM step .empty = .ok b) : b.HoldsOut := by
  obtain ⟨w, P, -, -, rfl⟩ := OpenForest.exists_builder_of_foldlM h
  have hground := P.isGrounded_builder
  constructor
  · intro inner outer hblocks
    rw [hblocks] at hground
    exact unwind?_eq_of_isGrounded hground
  · intro hne
    exact ⟨_, List.getLast_mem hne, hground _ (List.getLast?_eq_some_getLast hne)⟩

end Stencil
