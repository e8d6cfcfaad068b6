import Stencil.Proofs.Token.Coverage

/-!
# Where tags begin

Every tag that is scanned begins with the opening delimiter that is in force there, and so does the
malformed one at which a scan stops.  Which delimiters are in force at a place of a source is a
matter of the tags before it (`Delimiters.inForceAt`).

`Token.Follows` says of all tokens of a scan where they start and which delimiters they hand on, and
of the end of the scan why it is no later.  Every scan has this form, also one that fails, of which
`Scans` does not speak (`Token.follows_scanFrom`).

The tokens before a tag are then those that start before it.  This gives
`Delimiters.opensAt_of_mem_scan` for the tags of a source, and `Delimiters.opensAt_of_scan_error`
for the malformed one.
-/

set_option autoImplicit false

namespace Stencil

/-- A cursor in a source stands in front of the opening delimiter. -/
def Delimiters.OpensHere (d : Delimiters) (source : Text) (c : Cursor) : Prop :=
  ∃ before behind, source = before ++ (d.opening ++ behind) ∧ c = Cursor.start.advance before

/-- The delimiters that the tokens before a place hand on. -/
def Token.handedOn (d : Delimiters) (tokens : List Token) (offset : Nat) : Delimiters :=
  (tokens.filter fun token => token.start.offset < offset).foldl delimitersAfter d

/-- The delimiters in force at a place of a source that is scanned under the given ones. -/
def Delimiters.inForceAt (d : Delimiters) (source : Text) (offset : Nat) : Delimiters :=
  Token.handedOn d (scan d source).tokens offset

/-- A position in a source is that of an opening delimiter, which is the one in force there. -/
def Delimiters.OpensAt (d : Delimiters) (source : Text) (p : Position) : Prop :=
  ∃ before behind, source = before ++ ((d.inForceAt source before.length).opening ++ behind) ∧
    p = (Cursor.start.advance before).position

/-- A tag that cannot be read is reported where it begins. -/
theorem Tag.eq_malformed_of_read {d : Delimiters} {start : Cursor} {source : Text}
    {e : TemplateError} (h : Tag.read d start source = .error e) :
    ∃ fault, e = .malformed fault start.position := by
  simp only [Tag.read] at h
  split at h
  · exact ⟨_, (Except.error.inj h).symm⟩
  · split at h
    · exact ⟨_, (Except.error.inj h).symm⟩
    · exact absurd h (by simp)

namespace Token

/-- A token before a place hands on its delimiters. -/
theorem handedOn_cons {d : Delimiters} {token : Token} {offset : Nat}
    (h : token.start.offset < offset) (tokens : List Token) :
    handedOn d (token :: tokens) offset = handedOn (token.delimitersAfter d) tokens offset := by
  rw [handedOn, List.filter_cons_of_pos (by simpa using h), List.foldl_cons, handedOn]

/-- Tokens that are not before a place hand on nothing. -/
theorem handedOn_of_le {d : Delimiters} {tokens : List Token} {offset : Nat}
    (h : ∀ token ∈ tokens, offset ≤ token.start.offset) : handedOn d tokens offset = d := by
  have hnone : (tokens.filter fun token => token.start.offset < offset) = [] :=
    List.filter_eq_nil_iff.2 fun token hmem => by simpa using h token hmem
  rw [handedOn, hnone, List.foldl_nil]

/-- From a place in a source where some delimiters are in force, a scan goes on: tokens follow up to
the end or up to a malformed tag. -/
inductive Follows (source : Text) :
    Delimiters → Nat → List Token → Except TemplateError Cursor → Prop
  /-- The scan has come to the end. -/
  | finished {d : Delimiters} {place : Nat} {e : Cursor} : Follows source d place [] (.ok e)
  /-- The scan has come to a malformed tag. -/
  | malformed {d : Delimiters} {place : Nat} {fault : SyntaxFault} {c : Cursor}
      (hplace : place ≤ c.offset) (hopens : d.OpensHere source c) :
      Follows source d place [] (.error (.malformed fault c.position))
  /-- A run of text. -/
  | text {d : Delimiters} {place : Nat} {raw : Text} {start : Cursor} {tokens : List Token}
      {finish : Except TemplateError Cursor} (hplace : place ≤ start.offset)
      (h : Follows source d (start.offset + 1) tokens finish) :
      Follows source d place (.text raw start :: tokens) finish
  /-- A tag. -/
  | tag {d : Delimiters} {place : Nat} {tag : Tag} {tokens : List Token}
      {finish : Except TemplateError Cursor} (hplace : place ≤ tag.start.offset)
      (hopens : d.OpensHere source tag.start)
      (h : Follows source (tag.delimitersAfter d) (tag.start.offset + 1) tokens finish) :
      Follows source d place (.tag tag :: tokens) finish

namespace Follows

variable {source : Text} {d : Delimiters} {place place' : Nat} {tokens : List Token}
  {finish : Except TemplateError Cursor}

/-- What goes on from a place goes on from any place before it. -/
theorem mono (h : Follows source d place tokens finish) (hle : place' ≤ place) :
    Follows source d place' tokens finish := by
  cases h with
  | finished => exact .finished
  | malformed hplace hopens => exact .malformed (hle.trans hplace) hopens
  | text hplace h => exact .text (hle.trans hplace) h
  | tag hplace hopens h => exact .tag (hle.trans hplace) hopens h

/-- No token starts before the place. -/
theorem le_start (h : Follows source d place tokens finish) {token : Token}
    (hmem : token ∈ tokens) : place ≤ token.start.offset := by
  induction h with
  | finished => exact absurd hmem List.not_mem_nil
  | malformed => exact absurd hmem List.not_mem_nil
  | text hplace h ih =>
    rcases List.mem_cons.1 hmem with rfl | hmem
    · exact hplace
    · exact hplace.trans (Nat.le_of_succ_le (ih hmem))
  | tag hplace hopens h ih =>
    rcases List.mem_cons.1 hmem with rfl | hmem
    · exact hplace
    · exact hplace.trans (Nat.le_of_succ_le (ih hmem))

/-- **A tag begins with the opening delimiter** that the tokens before it hand on. -/
theorem opensHere_of_mem (h : Follows source d place tokens finish) {tag : Tag}
    (hmem : .tag tag ∈ tokens) :
    (handedOn d tokens tag.start.offset).OpensHere source tag.start := by
  induction h with
  | finished => exact absurd hmem List.not_mem_nil
  | malformed => exact absurd hmem List.not_mem_nil
  | text hplace h ih =>
    have hmem := (List.mem_cons.1 hmem).resolve_left Token.noConfusion
    rw [handedOn_cons (h.le_start hmem)]
    exact ih hmem
  | @tag d place first tokens finish hplace hopens h ih =>
    rcases List.mem_cons.1 hmem with heq | hmem
    · obtain rfl := Token.tag.inj heq
      have hnone : handedOn d (.tag tag :: tokens) tag.start.offset = d :=
        handedOn_of_le (List.forall_mem_cons.2
          ⟨Nat.le_refl _, fun token hmem => Nat.le_of_succ_le (h.le_start hmem)⟩)
      rwa [hnone]
    · rw [handedOn_cons (h.le_start hmem)]
      exact ih hmem

/-- **A malformed tag begins with the opening delimiter** that the tokens before it hand on. -/
theorem opensHere_of_error (h : Follows source d place tokens finish) {e : TemplateError}
    (herror : finish = .error e) :
    ∃ fault c, e = .malformed fault c.position ∧ place ≤ c.offset ∧
      (handedOn d tokens c.offset).OpensHere source c := by
  induction h with
  | finished => exact absurd herror (by simp)
  | malformed hplace hopens =>
    exact ⟨_, _, (Except.error.inj herror).symm, hplace, hopens⟩
  | text hplace h ih =>
    obtain ⟨fault, c, he, hlater, hopens⟩ := ih herror
    refine ⟨fault, c, he, hplace.trans (Nat.le_of_succ_le hlater), ?_⟩
    rwa [handedOn_cons hlater]
  | tag hplace _ h ih =>
    obtain ⟨fault, c, he, hlater, hopens⟩ := ih herror
    refine ⟨fault, c, he, hplace.trans (Nat.le_of_succ_le hlater), ?_⟩
    rwa [handedOn_cons hlater]

end Follows

/-! ## Scans -/

variable {source consumed : Text} {d : Delimiters} {tokens : List Token}
  {finish : Except TemplateError Cursor}

/-- A run of text before what follows. -/
theorem Follows.ofRun {run : Text} (h : Follows source d (consumed ++ run).length tokens finish) :
    Follows source d consumed.length (ofRun run (Cursor.start.advance consumed) ++ tokens)
      finish := by
  by_cases hne : run = []
  · subst hne
    rwa [List.append_nil] at h
  · have htoken : Token.ofRun run (Cursor.start.advance consumed) =
        [.text run (Cursor.start.advance consumed)] := by
      simp [Token.ofRun, hne]
    have hrun := List.length_pos_iff.2 hne
    rw [htoken]
    refine .text (offset_advance_start consumed).ge (h.mono ?_)
    rw [offset_advance_start, List.length_append]
    omega

/-- **A scan goes on from what has been consumed**, whether it comes to the end or not. -/
theorem follows_scanFrom {d : Delimiters} {c : Cursor} {rest : Text} {consumed : Text}
    (hsource : source = consumed ++ rest) (hc : c = Cursor.start.advance consumed) :
    Follows source d consumed.length (scanFrom d c rest).tokens (scanFrom d c rest).finish := by
  fun_induction scanFrom d c rest generalizing consumed with
  | case1 => exact .finished
  | case2 d c rest hne hsplit =>
    subst hc
    exact .text (offset_advance_start consumed).ge .finished
  | case3 d c rest hne run found hsplit here hback escaped hshort =>
    rename_i ih
    have hopening := Text.prefix_of_splitAtFirst hsplit
    have hhere : here = Cursor.start.advance (consumed ++ run) := by
      rw [Cursor.advance_append, ← hc]
    have hescaped : 0 < escaped.length := by
      obtain ⟨inside, hraw⟩ := exists_splitEscaped hopening
      have hne : escaped ≠ [] := fun hnil =>
        List.append_ne_nil_of_left_ne_nil d.opening_ne_nil _ (hraw.symm.trans hnil)
      exact List.length_pos_iff.2 hne
    have hfound : source = consumed ++ run ++ escaped ++ (splitEscaped d found).2 := by
      rw [hsource, ← Text.splitAtFirst_append hsplit, List.append_assoc, List.append_assoc,
        append_splitEscaped hopening]
    have hrest := ih hfound (by rw [hhere, ← Cursor.advance_append])
    have hplace : (consumed ++ run).length ≤ here.offset := by rw [hhere, offset_advance_start]
    have hescape : Follows source d (consumed ++ run).length
        (.text escaped here :: (scanFrom d (here.advance escaped) (splitEscaped d found).2).tokens)
        (scanFrom d (here.advance escaped) (splitEscaped d found).2).finish := by
      refine .text hplace (hrest.mono ?_)
      rw [hhere, offset_advance_start]
      simp only [List.length_append]
      omega
    -- the run without its backslash is shorter than what has been consumed
    have hdrop : (consumed ++ run.dropLast).length ≤ (consumed ++ run).length := by
      simp only [List.length_append, List.length_dropLast]
      omega
    rw [hc, Scan.prepend, List.append_assoc]
    exact (hescape.mono hdrop).ofRun
  | case4 d c rest hne run found hsplit here hback err =>
    rename_i hread
    have hhere : here = Cursor.start.advance (consumed ++ run) := by
      rw [Cursor.advance_append, ← hc]
    obtain ⟨behind, hopening⟩ := Text.prefix_of_splitAtFirst hsplit
    obtain ⟨fault, rfl⟩ := Tag.eq_malformed_of_read hread
    have hopens : d.OpensHere source here := by
      refine ⟨consumed ++ run, behind, ?_, hhere⟩
      rw [hopening, List.append_assoc, Text.splitAtFirst_append hsplit, hsource]
    have hmalformed : Follows source d (consumed ++ run).length []
        (.error (.malformed fault here.position)) :=
      .malformed (by rw [hhere, offset_advance_start]) hopens
    rw [hc, ← List.append_nil (Token.ofRun run (Cursor.start.advance consumed))]
    exact hmalformed.ofRun
  | case5 d c rest hne run found hsplit here hback tag after hread hshort =>
    rename_i ih
    have hhere : here = Cursor.start.advance (consumed ++ run) := by
      rw [Cursor.advance_append, ← hc]
    have hopening := Text.prefix_of_splitAtFirst hsplit
    obtain ⟨hstart, inside, hraw⟩ := Tag.exists_inside_of_read hread
    have hfound : source = consumed ++ run ++ tag.raw ++ after := by
      rw [hsource, ← Text.splitAtFirst_append hsplit, Tag.append_of_read hopening hread]
      simp only [List.append_assoc]
    have hlength : 0 < tag.raw.length := by
      rw [hraw]
      exact List.length_pos_iff.2 (List.append_ne_nil_of_left_ne_nil d.opening_ne_nil _)
    have hopens : d.OpensHere source tag.start := by
      refine ⟨consumed ++ run, inside ++ d.closing ++ after, ?_, hstart.trans hhere⟩
      rw [hfound, hraw]
      simp only [List.append_assoc]
    have hrest := ih hfound (by rw [hhere, ← Cursor.advance_append])
    have htag : Follows source d (consumed ++ run).length
        (.tag tag :: (scanFrom (tag.delimitersAfter d) (here.advance tag.raw) after).tokens)
        (scanFrom (tag.delimitersAfter d) (here.advance tag.raw) after).finish := by
      refine .tag (by rw [hstart, hhere, offset_advance_start]) hopens (hrest.mono ?_)
      rw [hstart, hhere, offset_advance_start]
      simp only [List.length_append]
      omega
    rw [hc, Scan.prepend, List.append_assoc]
    exact htag.ofRun

theorem follows_scan (d : Delimiters) (source : Text) :
    Follows source d 0 (scan d source).tokens (scan d source).finish :=
  follows_scanFrom (List.nil_append source).symm rfl

end Token

/-! ## Sources -/

namespace Delimiters

variable {d : Delimiters} {source : Text}

/-- Whatever stands in front of the delimiter that is in force there stands at its position. -/
theorem opensAt_of_opensHere {c : Cursor} (h : (d.inForceAt source c.offset).OpensHere source c) :
    d.OpensAt source c.position := by
  obtain ⟨before, behind, hsource, rfl⟩ := h
  rw [Token.offset_advance_start] at hsource
  exact ⟨before, behind, hsource, rfl⟩

/-- **Every tag of a source stands at an opening delimiter** that is in force there. -/
theorem opensAt_of_mem_scan {tag : Tag} (h : .tag tag ∈ (scan d source).tokens) :
    d.OpensAt source tag.start.position :=
  opensAt_of_opensHere ((Token.follows_scan d source).opensHere_of_mem h)

/-- **The malformed tag that stops a scan stands at an opening delimiter** that is in force
there. -/
theorem opensAt_of_scan_error {e : TemplateError} (h : (scan d source).finish = .error e) :
    ∃ fault p, e = .malformed fault p ∧ d.OpensAt source p := by
  obtain ⟨fault, c, rfl, -, hopens⟩ := (Token.follows_scan d source).opensHere_of_error h
  exact ⟨fault, c.position, rfl, opensAt_of_opensHere hopens⟩

end Delimiters

end Stencil
