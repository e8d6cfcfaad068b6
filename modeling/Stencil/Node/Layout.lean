import Stencil.Text.Blank
import Stencil.Token.Basic

/-!
# White space around tags

Two rules decide how much of the text between tags is kept.

* A tag that *stands alone*, with nothing but spaces and tabs between it and both ends of its line,
  takes the line with it: the indentation before it, and the blanks and the line break behind it.
  The rule covers the kinds of tags that produce no output of their own on the line
  (`TagKind.ownsLine`).
* A `~` at an edge of a tag removes all blanks on that side of it.

Both look at the tokens next to a text.  Whether a tag stands alone depends on the source of its
neighbours and not on what another tag has removed from them (`standaloneIndent?`), so each text can
be treated by itself: `trimmed` applies the two rules to a text between its neighbours, the first
rule before the second.
-/

set_option autoImplicit false

namespace Stencil

/-- A space or a tab. -/
def isIndentChar (c : Char) : Bool :=
  c == ' ' || c == '\t'

/-- Removes the indentation and the line break at the beginning of a text. -/
def dropLineEnd (t : Text) : Text :=
  match t.dropWhile isIndentChar with
  | '\n' :: rest => rest
  | '\r' :: '\n' :: rest => rest
  | rest => rest

namespace Token

/-- The indentation of a tag behind the given tokens, the nearest first, if nothing else stands
before it on its line. -/
def lineIndent? : List Token → Option Text
  | [] => some []
  | .text raw _ :: earlier =>
    match (Text.dropEndWhile isIndentChar raw).getLast? with
    | some '\n' => some (Text.takeEndWhile isIndentChar raw)
    | some _ => none
    | none => if earlier.isEmpty then some (Text.takeEndWhile isIndentChar raw) else none
  | .tag _ :: _ => none

/-- Whether nothing but spaces and tabs stands between a tag and the end of its line, when the
given tokens follow it. -/
def endsLine : List Token → Bool
  | [] => true
  | .text raw _ :: later =>
    match raw.dropWhile isIndentChar with
    | [] => later.isEmpty
    | '\n' :: _ => true
    | '\r' :: '\n' :: _ => true
    | _ => false
  | .tag _ :: _ => false

/-- The indentation of a tag that stands alone on its line, or `none` for any other tag.  The
tokens before it are given with the nearest first. -/
def standaloneIndent? (before : List Token) (tag : Tag) (after : List Token) : Option Text :=
  if tag.kind.ownsLine && endsLine after then lineIndent? before else none

/-- What is kept of a text between its neighbours: first a tag that stands alone takes its line,
then trimming marks take the blanks at their side. -/
def trimmed (before : List Token) (raw : Text) (start : Cursor) (after : List Token) : Text :=
  let here := Token.text raw start
  let aloneBefore : Bool :=
    match before with
    | .tag t :: earlier => (standaloneIndent? earlier t (here :: after)).isSome
    | _ => false
  let aloneAfter : Bool :=
    match after with
    | .tag t :: later => (standaloneIndent? (here :: before) t later).isSome
    | _ => false
  let marked (side : Tag → Bool) : List Token → Bool
    | .tag t :: _ => side t
    | _ => false
  let t := if aloneBefore then dropLineEnd raw else raw
  let t := if aloneAfter then Text.dropEndWhile isIndentChar t else t
  let t := if marked Tag.trimAfter before then t.dropWhile isBlank else t
  if marked Tag.trimBefore after then Text.dropEndWhile isBlank t else t

end Token

/-- A token after the white space around tags has been settled. -/
inductive Piece where
  /-- What is kept of a text. -/
  | text (content : Text)
  /-- A tag, with its indentation if it stands alone on its line. -/
  | tag (tag : Tag) (indent : Option Text)

namespace Piece

/-- The pieces of a token list, behind tokens of which the nearest comes first. -/
def arrangeFrom (before : List Token) : List Token → List Piece
  | [] => []
  | token :: after =>
    let piece :=
      match token with
      | .text raw start => .text (Token.trimmed before raw start after)
      | .tag t => .tag t (Token.standaloneIndent? before t after)
    piece :: arrangeFrom (token :: before) after

/-- The pieces of the tokens of a template. -/
def arrange (tokens : List Token) : List Piece :=
  arrangeFrom [] tokens

end Piece

end Stencil
