import Stencil.Proofs.Node.TagPosition
import Stencil.Proofs.Survey
import Stencil.Proofs.Token.TagStart

/-!
# What a source can be refused for

A source that cannot be compiled is malformed, closes a section that is not open, or leaves one open
(`Template.isOfSource_of_compile`): the other errors are those of rendering.  And whatever is wrong
with it, the error points at a tag, which stands where there is an opening delimiter that is in
force (`Template.opensAt_of_compile_error`).

A source is refused in one of three stages, and each has its own reason to point at a tag.  The scan
stops at a malformed tag (`Delimiters.opensAt_of_scan_error`).  While the tree is built, the error
belongs to the tag that is read, or to the one that opened a section which is left open
(`Node.exists_tag_of_ofTokens_error`).  And the walk along the tree refuses a section, which stands
where its opening tag stands (`Node.exists_tag_of_mem_preorder`).
-/

set_option autoImplicit false

namespace Stencil

/-- Whether an error is one of a source. -/
def TemplateError.isOfSource : TemplateError → Bool
  | .malformed _ _ | .mismatchedSection _ _ _ | .unclosedSection _ _ => true
  | _ => false

theorem TemplateError.isOfSource_of_sourcePosition? {e : TemplateError} {p : Position}
    (h : e.sourcePosition? = some p) : e.isOfSource = true := by
  cases e with
  | malformed | mismatchedSection | unclosedSection => rfl
  | _ => exact absurd h (by simp [sourcePosition?])

/-- A section that calls a built-in helper wrongly is reported where it stands. -/
theorem Node.Miscalls.exists_position {known : KnownHelpers} {n : Node} {e : TemplateError}
    (h : n.Miscalls known e) : ∃ p, n.position? = some p ∧ e.sourcePosition? = some p := by
  cases h with
  | block => exact ⟨_, rfl, rfl⟩

namespace Template

variable {known : KnownHelpers} {options : CompileOptions} {name source : Text} {e : TemplateError}

/-- **A source that is refused is refused for a tag.** -/
theorem opensAt_of_compile_error (h : (compile known options name source).result = .error e) :
    ∃ p, e.sourcePosition? = some p ∧ options.delimiters.OpensAt source p := by
  have hopens : ∀ {tag : Tag}, .tag tag ∈ (scan options.delimiters source).tokens →
      options.delimiters.OpensAt source tag.start.position := Delimiters.opensAt_of_mem_scan
  simp only [compile] at h
  split at h
  · next hscan =>
    obtain rfl := Except.error.inj h
    obtain ⟨fault, p, rfl, hp⟩ := Delimiters.opensAt_of_scan_error hscan
    exact ⟨p, rfl, hp⟩
  · split at h
    · next hnodes =>
      obtain rfl := Except.error.inj h
      obtain ⟨tag, htag, hp⟩ := Node.exists_tag_of_ofTokens_error hnodes
      exact ⟨_, hp, hopens htag⟩
    · next nodes hnodes =>
      split at h
      · next hmade =>
        obtain rfl := Except.error.inj h
        obtain ⟨before, n, after, hpreorder, hmiscalls, -⟩ := ofNodes_eq_error_iff.1 hmade
        have hn : n ∈ Node.preorder nodes := by
          rw [hpreorder]
          exact List.mem_append_right _ List.mem_cons_self
        obtain ⟨p, hnode, hp⟩ := hmiscalls.exists_position
        obtain ⟨tag, htag, rfl⟩ := Node.exists_tag_of_mem_preorder hnodes hn hnode
        exact ⟨_, hp, hopens htag⟩
      · exact absurd h (by simp)

/-- **A source is only refused for being malformed**, or for a section that is closed or left open
in it. -/
theorem isOfSource_of_compile (h : (compile known options name source).result = .error e) :
    e.isOfSource = true := by
  obtain ⟨p, hp, -⟩ := opensAt_of_compile_error h
  exact TemplateError.isOfSource_of_sourcePosition? hp

end Template

end Stencil
