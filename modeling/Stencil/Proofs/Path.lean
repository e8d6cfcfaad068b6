import Mathlib.Data.List.TakeWhile
import Stencil.Path

/-!
# Paths as they are written

A path is written as an `@` if it is a data path, a parent marker and a slash for every scope that
it leaves, and its segments with a dot or a slash between neighbours (`PathPiece.Joined`).  Written
in this way it is read back, whichever separators are taken, but for a bare `this` at the front,
which stands for the scope itself.  A parent marker behind a segment is refused wherever it stands.
`Path.parse_of_joined` says both.

What stands behind a segment decides where the segment ends, so the pieces are read in front of any
text that stops a bare segment (`PathPiece.read_append_of_joined`).  A marker between dots is not
read back as one piece, because the dots around it make up further markers; all that is needed is
that some marker follows a segment (`PathPiece.exists_read_of_joined`).
-/

set_option autoImplicit false

namespace Stencil

namespace PathPiece

/-! ## Pieces and their texts -/

/-- A piece as it is written. -/
def print : PathPiece → Text
  | .parent => ['.', '.']
  | .bare text => text
  | .bracketed text => '[' :: (text ++ [']'])
  | .unclosed => ['[']

/-- The name that a segment stands for. -/
def name : PathPiece → Text
  | .bare text | .bracketed text => text
  | .parent | .unclosed => []

/-- A segment as the reader of paths keeps it: its name, and whether it stands in brackets. -/
def marked : PathPiece → Text × Bool
  | .bracketed text => (text, true)
  | piece => (piece.name, false)

/-- A piece is a segment that can be written: in brackets any text without a closing bracket, and
without brackets any text that is not empty and holds no separator and no opening bracket. -/
inductive IsSegment : PathPiece → Prop
  /-- A segment without brackets. -/
  | bare {text : Text} (hne : text ≠ []) (hdot : '.' ∉ text) (hslash : '/' ∉ text)
      (hbracket : '[' ∉ text) : IsSegment (.bare text)
  /-- A segment in brackets. -/
  | bracketed {text : Text} (hclosing : ']' ∉ text) : IsSegment (.bracketed text)

/-- A text consists of pieces with a dot or a slash between neighbours. -/
inductive Joined : List PathPiece → Text → Prop
  /-- No pieces. -/
  | nil : Joined [] []
  /-- A single piece has no separator. -/
  | single (piece : PathPiece) : Joined [piece] piece.print
  /-- A piece in front of others. -/
  | cons (piece : PathPiece) {pieces : List PathPiece} {text : Text} {separator : Char}
      (hseparator : separator = '.' ∨ separator = '/') (hne : pieces ≠ [])
      (h : Joined pieces text) : Joined (piece :: pieces) (piece.print ++ separator :: text)

/-! ## Reading piece by piece -/

attribute [local simp] read

theorem read_nil : read [] = [] := by
  simp

theorem read_slash (t : Text) : read ('/' :: t) = read t := by
  simp

theorem read_parent (t : Text) : read ('.' :: '.' :: t) = .parent :: read t := by
  simp

theorem read_dot {t : Text} (h : t.head? ≠ some '.') : read ('.' :: t) = read t := by
  rw [read]
  rintro u rfl
  exact h rfl

/-- A run of characters of one class ends where another character stands. -/
theorem takeWhile_append_of_stops {p : Char → Bool} {run rest : Text} (hrun : ∀ c ∈ run, p c = true)
    (hrest : ∀ c, rest.head? = some c → p c = false) :
    (run ++ rest).takeWhile p = run ∧ (run ++ rest).dropWhile p = rest := by
  rw [List.takeWhile_append_of_pos hrun, List.dropWhile_append_of_pos hrun]
  cases rest with
  | nil => simp
  | cons c rest => simp [hrest c rfl]

theorem read_bracketed {text : Text} (h : ']' ∉ text) (rest : Text) :
    read ('[' :: (text ++ ']' :: rest)) = .bracketed text :: read rest := by
  have hall : ∀ c ∈ text, (c != ']') = true := fun c hc => by
    simpa using fun heq : c = ']' => h (heq ▸ hc)
  obtain ⟨htake, hdrop⟩ := @takeWhile_append_of_stops _ text (']' :: rest) hall (by simp)
  rw [read, if_pos (List.mem_append_right text List.mem_cons_self), htake, hdrop, List.tail_cons]

/-- A text goes on with something that ends a bare segment, or it is at its end. -/
def StopsSegment (rest : Text) : Prop :=
  ∀ c, rest.head? = some c → isBareChar c = false

theorem stopsSegment_cons {separator : Char} (h : separator = '.' ∨ separator = '/') (t : Text) :
    StopsSegment (separator :: t) := by
  rintro c hc
  obtain rfl := Option.some.inj hc
  rcases h with rfl | rfl <;> rfl

theorem read_bare {text rest : Text} (hne : text ≠ []) (hdot : '.' ∉ text) (hslash : '/' ∉ text)
    (hbracket : '[' ∉ text) (hrest : StopsSegment rest) :
    read (text ++ rest) = .bare text :: read rest := by
  obtain ⟨c, t, rfl⟩ := List.exists_cons_of_ne_nil hne
  simp only [List.mem_cons, not_or] at hdot hslash hbracket
  have hall : ∀ a ∈ t, isBareChar a = true := by
    intro a ha
    have h₁ : a ≠ '.' := fun heq => hdot.2 (heq ▸ ha)
    have h₂ : a ≠ '/' := fun heq => hslash.2 (heq ▸ ha)
    have h₃ : a ≠ '[' := fun heq => hbracket.2 (heq ▸ ha)
    simp [isBareChar, h₁, h₂, h₃]
  obtain ⟨htake, hdrop⟩ := takeWhile_append_of_stops hall hrest
  rw [List.cons_append, read, htake, hdrop]
  · exact fun heq => hbracket.1 heq.symm
  · exact fun _ heq => absurd heq.symm hdot.1
  · exact fun heq => hdot.1 heq.symm
  · exact fun heq => hslash.1 heq.symm

/-- A segment is read in front of whatever ends it. -/
theorem IsSegment.read_append {piece : PathPiece} (h : piece.IsSegment) {rest : Text}
    (hrest : StopsSegment rest) : read (piece.print ++ rest) = piece :: read rest := by
  cases h with
  | bare hne hdot hslash hbracket => exact read_bare hne hdot hslash hbracket hrest
  | @bracketed text hclosing =>
    rw [print, List.cons_append, List.append_assoc]
    exact read_bracketed hclosing rest

/-- A segment does not begin with a dot. -/
theorem IsSegment.head?_print {piece : PathPiece} (h : piece.IsSegment) (rest : Text) :
    (piece.print ++ rest).head? ≠ some '.' := by
  cases h with
  | @bare text hne hdot =>
    obtain ⟨c, t, rfl⟩ := List.exists_cons_of_ne_nil hne
    intro hc
    obtain rfl := Option.some.inj hc
    exact hdot List.mem_cons_self
  | bracketed => simp [print]

theorem Joined.exists_print {piece : PathPiece} {pieces : List PathPiece} {text : Text}
    (h : Joined (piece :: pieces) text) : ∃ rest, text = piece.print ++ rest := by
  cases h with
  | single => exact ⟨[], (List.append_nil _).symm⟩
  | cons => exact ⟨_, rfl⟩

/-- A separator in front of a segment is passed over. -/
theorem read_separator {separator : Char} (hseparator : separator = '.' ∨ separator = '/')
    {piece : PathPiece} (hpiece : piece.IsSegment) {pieces : List PathPiece} {text : Text}
    (h : Joined (piece :: pieces) text) (rest : Text) :
    read (separator :: (text ++ rest)) = read (text ++ rest) := by
  rcases hseparator with rfl | rfl
  · obtain ⟨more, rfl⟩ := h.exists_print
    rw [List.append_assoc]
    exact read_dot (hpiece.head?_print _)
  · exact read_slash _

/-- **Segments are read back**, in front of whatever ends a segment. -/
theorem read_append_of_joined {segments : List PathPiece} {text : Text}
    (hsegments : ∀ s ∈ segments, s.IsSegment) (h : Joined segments text) (rest : Text)
    (hrest : segments ≠ [] → StopsSegment rest) : read (text ++ rest) = segments ++ read rest := by
  induction h with
  | nil => rfl
  | single piece =>
    exact (hsegments piece List.mem_cons_self).read_append (hrest (List.cons_ne_nil _ _))
  | @cons piece pieces text separator hseparator hne h ih =>
    obtain ⟨hpiece, hpieces⟩ := List.forall_mem_cons.1 hsegments
    obtain ⟨second, others, rfl⟩ := List.exists_cons_of_ne_nil hne
    have hrest' := hrest (List.cons_ne_nil _ _)
    rw [List.append_assoc, List.cons_append,
      hpiece.read_append (stopsSegment_cons hseparator _),
      read_separator hseparator (hpieces second List.mem_cons_self) h,
      ih hpieces fun _ => hrest']
    rfl

/-- What joins two lists of pieces is a separator between what joins the one and what joins the
other. -/
theorem Joined.exists_split {before after : List PathPiece} {text : Text}
    (h : Joined (before ++ after) text) (hbefore : before ≠ []) (hafter : after ≠ []) :
    ∃ left separator right, text = left ++ separator :: right ∧
      (separator = '.' ∨ separator = '/') ∧ Joined before left ∧ Joined after right := by
  induction before generalizing text with
  | nil => exact absurd rfl hbefore
  | cons piece before ih =>
    obtain ⟨pieces, hpieces⟩ : ∃ pieces, pieces = before ++ after := ⟨_, rfl⟩
    rw [List.cons_append, ← hpieces] at h
    cases h with
    | single => exact absurd (List.append_eq_nil_iff.1 hpieces.symm).2 hafter
    | @cons _ _ text separator hseparator _ h =>
      subst hpieces
      cases before with
      | nil => exact ⟨_, separator, text, rfl, hseparator, .single piece, h⟩
      | cons second others =>
        obtain ⟨left, inner, right, rfl, hinner, hleft, hright⟩ := ih h (List.cons_ne_nil _ _)
        refine ⟨piece.print ++ separator :: left, inner, right, ?_, hinner,
          .cons piece hseparator (List.cons_ne_nil _ _) hleft, hright⟩
        rw [List.append_assoc, List.cons_append]

/-- **A marker behind segments is read behind them**, whatever is made of the rest. -/
theorem exists_read_of_joined {before after : List PathPiece} {text : Text}
    (hbefore : ∀ s ∈ before, s.IsSegment) (hne : before ≠ [])
    (h : Joined (before ++ .parent :: after) text) :
    ∃ pieces, read text = before ++ .parent :: pieces := by
  obtain ⟨left, separator, right, rfl, hseparator, hleft, hright⟩ :=
    h.exists_split hne (List.cons_ne_nil _ _)
  obtain ⟨more, rfl⟩ := hright.exists_print
  have hstop := stopsSegment_cons hseparator (parent.print ++ more)
  rw [read_append_of_joined hbefore hleft _ fun _ => hstop]
  rcases hseparator with rfl | rfl
  -- three dots are a marker and a separator
  · exact ⟨read ('.' :: more), congrArg _ (read_parent _)⟩
  · refine ⟨read more, congrArg _ ?_⟩
    rw [read_slash]
    exact read_parent more

end PathPiece

namespace Path

open PathPiece

/-! ## Parent markers in front -/

/-- As many parent markers as a path leaves scopes, each with a slash. -/
def markers (depth : Nat) : Text :=
  (List.replicate depth ['.', '.', '/']).flatten

/-- What stands in front of the segments of a path. -/
def front (isData : Bool) (depth : Nat) : Text :=
  (if isData then ['@'] else []) ++ markers depth

theorem markers_succ (depth : Nat) : markers (depth + 1) = '.' :: '.' :: '/' :: markers depth := rfl

theorem splitParents_of_head? {pieces : List PathPiece} (h : pieces.head? ≠ some .parent) :
    splitParents pieces = (0, pieces) := by
  cases pieces with
  | nil => rfl
  | cons piece pieces =>
    cases piece with
    | parent => exact absurd rfl h
    | _ => rfl

/-- Every marker in front counts for one scope more. -/
theorem splitParents_read_markers (depth : Nat) (text : Text) :
    splitParents (read (markers depth ++ text)) =
      ((splitParents (read text)).1 + depth, (splitParents (read text)).2) := by
  induction depth with
  | zero => rfl
  | succ depth ih =>
    rw [markers_succ, List.cons_append, List.cons_append, List.cons_append, read_parent,
      read_slash, splitParents, ih, Nat.add_assoc]

theorem stripPrefix?_front {isData : Bool} {depth : Nat} {text : Text}
    (h : isData = false → depth = 0 → text.head? ≠ some '@') :
    Text.stripPrefix? ['@'] (front isData depth ++ text) =
      if isData then some (markers depth ++ text) else none := by
  cases isData with
  | true => rfl
  | false =>
    cases depth with
    | zero =>
      cases text with
      | nil => rfl
      | cons c text =>
        have hc : '@' ≠ c := fun heq => h rfl rfl (by rw [heq]; rfl)
        exact if_neg hc
    | succ depth => rfl

/-! ## Segments -/

theorem segmentsOf_append {segments : List PathPiece} (hsegments : ∀ s ∈ segments, s.IsSegment)
    (source : Text) (pieces : List PathPiece) :
    segmentsOf source (segments ++ pieces) =
      (segmentsOf source pieces).map (segments.map marked ++ ·) := by
  induction segments with
  | nil => cases hrest : segmentsOf source pieces <;> simp [Except.map, hrest]
  | cons segment segments ih =>
    obtain ⟨hsegment, hrest⟩ := List.forall_mem_cons.1 hsegments
    cases hsegment with
    | bare | bracketed =>
      rw [List.cons_append, segmentsOf, ih hrest]
      cases segmentsOf source pieces <;> rfl

theorem map_marked {segments : List PathPiece} (hsegments : ∀ s ∈ segments, s.IsSegment) :
    (segments.map marked).map (·.1) = segments.map name := by
  rw [List.map_map]
  refine List.map_congr_left fun s hs => ?_
  cases hsegments s hs with
  | bare | bracketed => rfl

/-- A bare `this` at the front stands for the scope and is no segment. -/
theorem map_dropThis_marked {segments : List PathPiece}
    (hsegments : ∀ s ∈ segments, s.IsSegment) :
    (dropThis (segments.map marked)).map (·.1) =
      (if segments.head? = some (.bare ['t', 'h', 'i', 's']) then segments.tail else segments).map
        name := by
  split
  · next h =>
    obtain ⟨rest, rfl⟩ := List.head?_eq_some_iff.1 h
    exact map_marked (List.forall_mem_cons.1 hsegments).2
  · next h =>
    have hkeep : dropThis (segments.map marked) = segments.map marked := by
      unfold dropThis
      split
      · next rest heq =>
        obtain ⟨segment, more, rfl, hmarked, -⟩ := List.map_eq_cons_iff.1 heq
        refine absurd ?_ h
        cases hsegments segment List.mem_cons_self with
        | bare => rw [← (Prod.mk.inj hmarked).1]; rfl
        | bracketed => exact absurd (Prod.mk.inj hmarked).2 (by decide)
      · rfl
    rw [hkeep, map_marked hsegments]

/-! ## Whole paths -/

/-- A segment that is not a bare name with an `@` does not begin with an `@`. -/
theorem head?_ne_of_joined {segments : List PathPiece} {text : Text} (h : Joined segments text)
    (hsegments : ∀ s, segments.head? = some s → s.IsSegment)
    (hat : ∀ t, segments.head? ≠ some (.bare ('@' :: t))) : text.head? ≠ some '@' := by
  cases segments with
  | nil =>
    cases h
    simp
  | cons segment segments =>
    obtain ⟨rest, rfl⟩ := h.exists_print
    cases hsegments segment rfl with
    | @bare name hne =>
      obtain ⟨c, t, rfl⟩ := List.exists_cons_of_ne_nil hne
      intro hc
      obtain rfl := Option.some.inj hc
      exact hat t rfl
    | bracketed => simp [print]

/-- The pieces behind the markers decide what a path is read as, once it is known what stands in
front of them. -/
theorem parse_front {isData : Bool} {depth further : Nat} {text : Text} {pieces : List PathPiece}
    (hat : isData = false → depth = 0 → text.head? ≠ some '@')
    (hread : splitParents (read text) = (further, pieces)) :
    parse (front isData depth ++ text) =
      (segmentsOf (front isData depth ++ text) pieces).bind fun segments =>
        if isData then
          if segments.isEmpty then .error (.emptyDataPath (front isData depth ++ text))
          else .ok ⟨front isData depth ++ text, segments.map (·.1), further + depth, true⟩
        else
          .ok ⟨front isData depth ++ text, (dropThis segments).map (·.1), further + depth,
            false⟩ := by
  have hbody : splitParents (read ((if isData then some (markers depth ++ text) else none).getD
      (front isData depth ++ text))) = (further + depth, pieces) := by
    have hsplit := splitParents_read_markers depth text
    rw [hread] at hsplit
    cases isData <;> exact hsplit
  simp only [parse, stripPrefix?_front hat, hbody]
  cases segmentsOf (front isData depth ++ text) pieces with
  | error fault => rfl
  | ok segments => cases isData <;> rfl

/-- **A path that is written is read back.** -/
theorem parse_of_joined {isData : Bool} {depth : Nat} {segments : List PathPiece}
    (hsegments : ∀ s ∈ segments, s.IsSegment) (hdata : isData = true → segments ≠ [])
    (hat : isData = false → depth = 0 → ∀ t, segments.head? ≠ some (.bare ('@' :: t))) :
    (∀ text, Joined segments text →
      parse (front isData depth ++ text) = .ok
        { source := front isData depth ++ text
          segments :=
            (if isData = false ∧ segments.head? = some (.bare ['t', 'h', 'i', 's']) then
              segments.tail else segments).map name
          depth
          isData }) ∧
    ∀ before after text, segments = before ++ after → before ≠ [] →
      Joined (before ++ .parent :: after) text →
        parse (front isData depth ++ text) =
          .error (.parentAfterSegment (front isData depth ++ text)) := by
  have hhead : ∀ s, segments.head? = some s → s.IsSegment := fun s hs =>
    hsegments s (List.mem_of_mem_head? hs)
  constructor
  · intro text htext
    have hread : splitParents (read text) = (0, segments) := by
      have h := read_append_of_joined hsegments htext [] fun _ _ hc => nomatch hc
      rw [List.append_nil, read_nil, List.append_nil] at h
      rw [h, splitParents_of_head? fun hparent => nomatch hhead _ hparent]
    have hkept : segmentsOf (front isData depth ++ text) segments =
        .ok (segments.map marked) := by
      have h := segmentsOf_append hsegments (front isData depth ++ text) []
      rw [List.append_nil] at h
      rw [h, segmentsOf, Except.map, List.append_nil]
    rw [parse_front (fun h₁ h₂ => head?_ne_of_joined htext hhead (hat h₁ h₂)) hread, hkept,
      Nat.zero_add]
    cases isData with
    | true =>
      simp [Except.bind, hdata, map_marked hsegments]
    | false => simp [Except.bind, map_dropThis_marked hsegments]
  · rintro before after text rfl hne htext
    obtain ⟨first, others, rfl⟩ := List.exists_cons_of_ne_nil hne
    have hbefore := (List.forall_mem_append.1 hsegments).1
    obtain ⟨pieces, hpieces⟩ := exists_read_of_joined hbefore hne htext
    have hread : splitParents (read text) = (0, first :: others ++ .parent :: pieces) := by
      rw [hpieces]
      exact splitParents_of_head? fun hparent => nomatch hhead _ hparent
    rw [parse_front (fun h₁ h₂ => head?_ne_of_joined htext hhead (hat h₁ h₂)) hread,
      segmentsOf_append hbefore, segmentsOf]
    rfl

/-- A path with a `this` that is dropped, separators in brackets and a bracket in a name; and the
same path with a marker between dots. -/
theorem parse_of_joined_brackets :
    parse "../../this.[a/.b]/c]".toList =
        .ok ⟨"../../this.[a/.b]/c]".toList, ["a/.b".toList, "c]".toList], 2, false⟩ ∧
      parse "../../this.[a/.b]....c]".toList =
        .error (.parentAfterSegment "../../this.[a/.b]....c]".toList) := by
  have hthis : (bare ['t', 'h', 'i', 's']).IsSegment :=
    .bare (by decide) (by decide) (by decide) (by decide)
  have hbrackets : (bracketed ['a', '/', '.', 'b']).IsSegment := .bracketed (by decide)
  have hname : (bare ['c', ']']).IsSegment := .bare (by decide) (by decide) (by decide) (by decide)
  have h := @parse_of_joined false 2 [bare ['t', 'h', 'i', 's'], bracketed ['a', '/', '.', 'b'],
    bare ['c', ']']] (by simp [hthis, hbrackets, hname]) nofun nofun
  exact ⟨h.1 _ (.cons _ (.inl rfl) (by simp) (.cons _ (.inr rfl) (by simp) (.single _))),
    h.2 [bare ['t', 'h', 'i', 's'], bracketed ['a', '/', '.', 'b']] [bare ['c', ']']] _ rfl
      (by simp) (.cons _ (.inl rfl) (by simp) (.cons _ (.inl rfl) (by simp)
        (.cons _ (.inl rfl) (by simp) (.single _))))⟩

end Path

end Stencil
