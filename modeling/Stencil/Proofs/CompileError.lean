import Stencil.Engine.Stack
import Stencil.Proofs.Expr.Descent
import Stencil.Proofs.Node.Stack
import Stencil.Proofs.SourceError

/-!
# Compiling never breaks down

A source that is refused is refused with an error that points at a tag.  That compiling ends with
such an error or with a template rests on two things that it takes for granted on its way: that the
stack of open sections holds what is asked of it (`TreeBuilder.HoldsOut`), and that the parameters
of a tag can be read without a look behind their last token (`Call.descend?_eq`,
`PartialCall.descend?_eq`).

There is one other way to end.  The parameters of a tag are read by descent into their groups, and
the room for that is limited; where some tag has more groups open at once, nothing points at it.
`Template.compileWithin_points_at_tag` says all of it, for all sources, and
`Template.compileWithin_eq_none_of_groups` that four hundred groups are too many.
-/

set_option autoImplicit false

namespace Stencil

/-- As many groups as are open at once while pieces are read are open while some tag is. -/
theorem TreeBuilder.exists_tag_of_lt_depthFrom {room : Nat} {b : TreeBuilder} {pieces : List Piece}
    (h : room < b.depthFrom pieces) :
    ∃ tag indent, .tag tag indent ∈ pieces ∧ room < tag.depthRead := by
  have hfirst {b : TreeBuilder} {p : Piece} (h : room < b.depthRead p) :
      ∃ tag indent, p = .tag tag indent ∧ room < tag.depthRead := by
    cases p with
    | text content => exact absurd h (Nat.not_lt_zero room)
    | tag tag indent =>
      rw [depthRead] at h
      split at h
      · exact absurd h (Nat.not_lt_zero room)
      · exact ⟨tag, indent, rfl, h⟩
  induction pieces generalizing b with
  | nil => exact absurd h (Nat.not_lt_zero room)
  | cons p ps ih =>
    rw [depthFrom] at h
    split at h
    · obtain ⟨tag, indent, rfl, hdepth⟩ := hfirst h
      exact ⟨tag, indent, List.mem_cons_self, hdepth⟩
    · next b' _ =>
      rcases Nat.lt_or_ge room (b.depthRead p) with hp | hp
      · obtain ⟨tag, indent, rfl, hdepth⟩ := hfirst hp
        exact ⟨tag, indent, List.mem_cons_self, hdepth⟩
      · have hrest : room < b'.depthFrom ps := by omega
        obtain ⟨tag, indent, hmem, hdepth⟩ := ih hrest
        exact ⟨tag, indent, List.mem_cons_of_mem p hmem, hdepth⟩

namespace Template

variable {room : Nat} {options : CompileOptions} {source : Text}

/-- As many groups as are open at once while a source is read are open while some tag is. -/
theorem exists_tag_of_lt_depthRead (h : room < depthRead options source) :
    ∃ tag, .tag tag ∈ (scan options.delimiters source).tokens ∧ room < tag.depthRead := by
  simp only [depthRead] at h
  split at h
  · exact absurd h (Nat.not_lt_zero room)
  · obtain ⟨tag, indent, hmem, hdepth⟩ := TreeBuilder.exists_tag_of_lt_depthFrom h
    exact ⟨tag, Piece.mem_of_mem_arrangeFrom hmem, hdepth⟩

/-- **Compiling succeeds or points at a tag, as long as there is room for the groups.**  For every
source, every pair of delimiters, any helpers that are known and room for any number of groups:

* the source is compiled, or it is refused as malformed, for a closing tag that does not fit, or for
  a section that is left open, and the position in the error is that of an opening delimiter in the
  source which is in force there; or there is no outcome, and some tag of the source has more groups
  open at once than there is room for;
* whatever pieces of the source have been read, a closing tag finds its section before the stack of
  open sections runs empty, and if sections are left open one of them is not chained;
* whatever a tag holds, its parameters can be read by descent without a look behind the last
  token, which comes to the same call or the same error unless more groups are open at once than
  there is room for. -/
theorem compileWithin_points_at_tag (room : Nat) (known : KnownHelpers) (options : CompileOptions)
    (name source : Text) :
    ((∃ c t, compileWithin room known options name source = some c ∧ c.result = .ok t) ∨
      (∃ c e p, compileWithin room known options name source = some c ∧ c.result = .error e ∧
        e.sourcePosition? = some p ∧ options.delimiters.OpensAt source p) ∨
      compileWithin room known options name source = none ∧
        ∃ tag, .tag tag ∈ (scan options.delimiters source).tokens ∧ room < tag.depthRead) ∧
    (∀ (pieces : List Piece) (b : TreeBuilder),
      pieces.foldlM TreeBuilder.step .empty = .ok b → b.HoldsOut) ∧
    ∀ (content : Text) (position : Position),
      (Call.descend? room content).map (Except.mapError (Descent.Stop.error? position)) =
        some (if room < ArgGroup.depthRead .callAwaited content then .error none
          else (Call.parse position content).mapError some) ∧
      (PartialCall.descend? room content).map (Except.mapError (Descent.Stop.error? position)) =
        some (if room < ArgGroup.depthRead .partialAwaited content then .error none
          else (PartialCall.parse position content).mapError some) := by
  refine ⟨?_, fun pieces b h => TreeBuilder.holdsOut_of_foldlM h, fun content position =>
    ⟨Call.descend?_eq room content position, PartialCall.descend?_eq room content position⟩⟩
  rw [compileWithin]
  split
  · next hdepth => exact .inr (.inr ⟨rfl, exists_tag_of_lt_depthRead hdepth⟩)
  · cases hresult : (compile known options name source).result with
    | ok t => exact .inl ⟨_, t, rfl, hresult⟩
    | error e =>
      obtain ⟨p, hp, hopens⟩ := opensAt_of_compile_error hresult
      exact .inr (.inl ⟨_, e, p, rfl, hresult, hp, hopens⟩)

/-- A source that sets its delimiters and leaves two sections and a chained one open: the error
points at the second section, which begins with the delimiter that has been set. -/
theorem compileWithin_points_at_tag_left_open :
    let source := "\x7b\x7b=< >=\x7d\x7d\n x <#a><#b><else c>".toList
    (∃ c e p, compileWithin 0 [] {} [] source = some c ∧ c.result = .error e ∧
      e.sourcePosition? = some p ∧ Delimiters.OpensAt .braces source p ∧ p = ⟨2, 8⟩) ∧
    ∃ b, (Piece.arrange (scan .braces source).tokens).foldlM TreeBuilder.step .empty = .ok b ∧
      b.blocks.length = 3 ∧ b.HoldsOut := by
  intro source
  have hresult : (compileWithin 0 [] {} [] source).map (fun c => c.result.map Template.source) =
      some (.error (.unclosedSection ['b'] ⟨2, 8⟩)) := by
    decide +kernel
  have hblocks : (((Piece.arrange (scan .braces source).tokens).foldlM
      TreeBuilder.step .empty).map fun b => b.blocks.length).toOption = some 3 := by
    decide +kernel
  obtain ⟨hcompiled, hstack, -⟩ := compileWithin_points_at_tag 0 [] {} [] source
  refine ⟨?_, ?_⟩
  · obtain ⟨c, hc, herror⟩ := Option.map_eq_some_iff.1 hresult
    have herror := Except.map_eq_error.1 herror
    rcases hcompiled with ⟨c', t, hc', ht⟩ | ⟨c', e, p, hc', he, hp, hopens⟩ | ⟨hnone, -⟩
    · obtain rfl := Option.some.inj (hc.symm.trans hc')
      exact absurd (herror.symm.trans ht) nofun
    · obtain rfl := Option.some.inj (hc.symm.trans hc')
      obtain rfl := Except.error.inj (herror.symm.trans he)
      obtain rfl := Option.some.inj hp
      exact ⟨c, _, _, hc, herror, rfl, hopens, rfl⟩
    · exact absurd (hc.symm.trans hnone) nofun
  · obtain ⟨b, hb, hlength⟩ := Except.map_eq_ok.1 (Except.toOption_eq_some.1 hblocks)
    exact ⟨b, hb, hlength, hstack _ b hb⟩

/-- A tag with four hundred groups inside each other is well-formed, and there is no room for it: it
is neither compiled nor refused. -/
theorem compileWithin_eq_none_of_groups :
    let source : Text := "\x7b\x7ba".toList ++ (List.replicate 400 " (a".toList).flatten ++
      List.replicate 400 ')' ++ "\x7d\x7d".toList
    (compile [] {} [] source).result.isOk = true ∧
      ¬ ((∃ c t, compileWithin Stack.standard.outermostRoom [] {} [] source = some c ∧
          c.result = .ok t) ∨
        ∃ c e p, compileWithin Stack.standard.outermostRoom [] {} [] source = some c ∧
          c.result = .error e ∧ e.sourcePosition? = some p ∧
          Delimiters.OpensAt .braces source p) := by
  intro source
  have hok : (compile [] {} [] source).result.isOk = true := by decide +kernel
  have hnone : compileWithin Stack.standard.outermostRoom [] {} [] source = none :=
    Option.isNone_iff_eq_none.1 (by decide +kernel)
  refine ⟨hok, ?_⟩
  rintro (⟨c, t, hc, -⟩ | ⟨c, e, p, hc, -⟩)
  · exact absurd (hnone.symm.trans hc) nofun
  · exact absurd (hnone.symm.trans hc) nofun

end Template

end Stencil
