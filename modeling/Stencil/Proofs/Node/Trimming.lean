import Mathlib.Data.List.Infix
import Stencil.Proofs.Node.Standalone

/-!
# What is kept of a text

The white space around a text is settled in four steps, of which each works on what is left: the tag
before the text takes its line, then the tag behind it does, and then trimming marks take the blanks
at either edge.  `Token.trimmed_eq_cut` says what comes out without going through the steps: two
marks are read off the original text, `frontCut` by the token before it and `backCut` by the token
behind it, and the stretch between the marks is what is kept.

Here a tag takes its line if it stands alone in the source; that this is what its neighbours tell is
`standaloneIndent?_of_isLocated`.
-/

set_option autoImplicit false

namespace Stencil

namespace Text

/-- The spaces and tabs at the beginning of a text, with the line break behind them if there is
one. -/
def lineEnd (t : Text) : Text :=
  t.takeWhile isIndentChar ++
    match t.dropWhile isIndentChar with
    | '\n' :: _ => ['\n']
    | '\r' :: '\n' :: _ => ['\r', '\n']
    | _ => []

theorem lineEnd_append_dropLineEnd (t : Text) : lineEnd t ++ dropLineEnd t = t := by
  conv_rhs => rw [← List.takeWhile_append_dropWhile (p := isIndentChar) (l := t)]
  rw [lineEnd, dropLineEnd, List.append_assoc]
  congr 1
  split <;> simp_all

theorem dropLineEnd_eq_drop (t : Text) : dropLineEnd t = t.drop (lineEnd t).length := by
  have h := @List.drop_left _ (lineEnd t) (dropLineEnd t)
  rw [lineEnd_append_dropLineEnd] at h
  exact h.symm

theorem isBlank_of_mem_lineEnd {t : Text} {c : Char} (h : c ∈ lineEnd t) : isBlank c = true := by
  rw [lineEnd, List.mem_append] at h
  rcases h with h | h
  · exact isBlank_of_isIndentChar (List.mem_takeWhile_imp h)
  · split at h
    · obtain rfl := List.mem_singleton.1 h
      decide
    · rcases List.mem_pair.1 h with rfl | rfl <;> decide
    · exact absurd h List.not_mem_nil

/-- The four steps that settle the white space of a text: the tag before it may take its line, the
tag behind it may take its line, and either edge may be trimmed. -/
def settle (lineBefore lineAfter trimFront trimBack : Bool) (t : Text) : Text :=
  let t := if lineBefore then dropLineEnd t else t
  let t := if lineAfter then dropEndWhile isIndentChar t else t
  let t := if trimFront then t.dropWhile isBlank else t
  if trimBack then dropEndWhile isBlank t else t

/-- **The four steps are one cut.**  Both marks are read off the text as it was. -/
theorem settle_eq_cut (lineBefore lineAfter trimFront trimBack : Bool) (t : Text) :
    settle lineBefore lineAfter trimFront trimBack t =
      cut
        (if trimFront then (t.takeWhile isBlank).length
          else if lineBefore then (lineEnd t).length else 0)
        (if trimBack then (takeEndWhile isBlank t).length
          else if lineAfter then (takeEndWhile isIndentChar t).length else 0) t := by
  -- every step at the end is moved in front of the steps at the beginning
  let line := if lineBefore then (lineEnd t).length else 0
  let kept := if lineAfter then dropEndWhile isIndentChar t else t
  have hline : (if lineBefore then dropLineEnd t else t) = t.drop line := by
    cases lineBefore with
    | false => rfl
    | true => exact dropLineEnd_eq_drop t
  have hkept : (if lineAfter then dropEndWhile isIndentChar (t.drop line) else t.drop line) =
      kept.drop line := by
    cases lineAfter with
    | false => rfl
    | true => exact dropEndWhile_drop t line
  have hinit : kept <+: t := by
    cases lineAfter with
    | false => exact List.prefix_rfl
    | true => exact List.rdropWhile_prefix isIndentChar t
  have hblank : ∀ c ∈ kept.take line, isBlank c = true := by
    intro c hc
    have hmem : c ∈ t.take line := (hinit.take line).subset hc
    cases lineBefore with
    | false => exact absurd hmem (by simp [line])
    | true =>
      have htake := @List.take_left _ (lineEnd t) (dropLineEnd t)
      rw [lineEnd_append_dropLineEnd] at htake
      exact isBlank_of_mem_lineEnd (htake ▸ hmem)
  let front := if trimFront then (t.takeWhile isBlank).length else line
  have hfront : (if trimFront then (kept.drop line).dropWhile isBlank else kept.drop line) =
      kept.drop front := by
    cases trimFront with
    | false => rfl
    | true =>
      show (kept.drop line).dropWhile isBlank = kept.drop (t.takeWhile isBlank).length
      rw [dropWhile_drop_of_all hblank]
      cases lineAfter with
      | false => exact dropWhile_eq_drop t
      | true => exact dropWhile_dropEndWhile t
  have hback : (if trimBack then dropEndWhile isBlank (kept.drop front) else kept.drop front) =
      cut front (if trimBack then (takeEndWhile isBlank t).length
        else if lineAfter then (takeEndWhile isIndentChar t).length else 0) t := by
    cases trimBack with
    | true =>
      have hall : dropEndWhile isBlank kept = dropEndWhile isBlank t := by
        cases lineAfter with
        | false => rfl
        | true => exact dropEndWhile_dropEndWhile (fun _ => isBlank_of_isIndentChar) t
      rw [if_pos rfl, dropEndWhile_drop, hall, dropEndWhile_eq_take, if_pos rfl, cut]
    | false =>
      cases lineAfter with
      | false => simp [cut, kept]
      | true => simp [cut, kept, dropEndWhile_eq_take]
  rw [settle, hline, hkept, hfront, hback]

end Text

namespace Token

/-- The number of characters that the token before a text takes from it: all blanks if that token
is a tag with a trimming mark on this side, and the end of the line if it is a tag that stands
alone. -/
def frontCut (source raw : Text) : (previous : Option Token) → Nat
  | some (.tag t) =>
    if t.trimAfter then (raw.takeWhile isBlank).length
    else if t.StandsAlone source then (Text.lineEnd raw).length else 0
  | _ => 0

/-- The number of characters that the token behind a text takes from it: all blanks if that token is
a tag with a trimming mark on this side, and the indentation if it is a tag that stands alone. -/
def backCut (source raw : Text) : (next : Option Token) → Nat
  | some (.tag t) =>
    if t.trimBefore then (Text.takeEndWhile isBlank raw).length
    else if t.StandsAlone source then (Text.takeEndWhile isIndentChar raw).length else 0
  | _ => 0

/-- For a tag that is located, standing alone is a matter of the source, and so is the indentation
that is recorded for it. -/
theorem standaloneIndent?_of_isLocated {source : Text} {before after : List Token} {tag : Tag}
    (h : (Token.tag tag).IsLocated source before after) :
    standaloneIndent? before tag after =
      if tag.StandsAlone source then
        Text.indentAtEnd? (source.take tag.start.offset) else none := by
  rw [standaloneIndent?, h.endsLine tag rfl, h.lineIndent? tag rfl]
  by_cases hline : (Text.indentAtEnd? (source.take tag.start.offset)).isSome
  · have hiff : tag.StandsAlone source ↔ (tag.kind.ownsLine &&
        Text.isLineEnd (source.drop (tag.start.offset + tag.raw.length))) = true := by
      rw [Tag.standsAlone_iff, hline, Bool.and_true]
    simp only [hiff]
  · rw [Bool.not_eq_true, Option.isSome_eq_false_iff, Option.isNone_iff_eq_none] at hline
    rw [hline]
    simp

theorem isSome_standaloneIndent? {source : Text} {before after : List Token} {tag : Tag}
    (h : (Token.tag tag).IsLocated source before after) :
    (standaloneIndent? before tag after).isSome = decide (tag.StandsAlone source) := by
  rw [standaloneIndent?_of_isLocated h]
  by_cases halone : tag.StandsAlone source
  · obtain ⟨indent, hindent⟩ := halone.startsLine
    rw [if_pos halone, Text.indentAtEnd?_eq_some_iff.2 hindent]
    simp [halone]
  · simp [halone]

/-- **What is kept of a text** is the stretch between the marks that its neighbours set. -/
theorem trimmed_eq_cut {source : Text} {before after : List Token} {raw : Text} {start : Cursor}
    (hbefore : ∀ tag earlier, before = .tag tag :: earlier →
      (Token.tag tag).IsLocated source earlier (.text raw start :: after))
    (hafter : ∀ tag later, after = .tag tag :: later →
      (Token.tag tag).IsLocated source (.text raw start :: before) later) :
    trimmed before raw start after =
      Text.cut (frontCut source raw before.head?) (backCut source raw after.head?) raw := by
  have hsettle : trimmed before raw start after = Text.settle _ _ _ _ raw := rfl
  rw [hsettle, Text.settle_eq_cut]
  congr 1
  · rcases before with _ | ⟨_ | tag, earlier⟩
    · rfl
    · rfl
    · simp only [isSome_standaloneIndent? (hbefore tag earlier rfl), decide_eq_true_eq]
      rfl
  · rcases after with _ | ⟨_ | tag, later⟩
    · rfl
    · rfl
    · simp only [isSome_standaloneIndent? (hafter tag later rfl), decide_eq_true_eq]
      rfl

end Token

end Stencil
