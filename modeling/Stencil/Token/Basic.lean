import Stencil.Delimiters
import Stencil.Position

/-!
# Tokens of a template

A template is a sequence of text runs and tags.  A tag keeps its exact source, its kind, its
content without marks and sigils, and whether `~` stands at its left or right edge.  A tag that
sets the delimiters carries the pair that it sets.
-/

set_option autoImplicit false

namespace Stencil

/-- What a tag is for. -/
inductive TagKind where
  /-- Outputs a value with escaping. -/
  | escaped
  /-- Outputs a value as it stands. -/
  | unescaped
  /-- Opens a section. -/
  | block
  /-- Opens an inverted section. -/
  | inverted
  /-- Closes a section. -/
  | close
  /-- Inserts a partial. -/
  | partialRef
  /-- Begins the other branch of a section. -/
  | otherwise
  /-- Is ignored. -/
  | comment
  /-- Sets the delimiters for the rest of the template. -/
  | delimiters (next : Delimiters)
deriving DecidableEq, Repr

/-- Whether a tag of this kind that stands alone on a line takes the line with it. -/
def TagKind.ownsLine : TagKind → Bool
  | .escaped | .unescaped => false
  | _ => true

/-- A tag. -/
structure Tag where
  /-- What it is for. -/
  kind : TagKind
  /-- Its source, delimiters included. -/
  raw : Text
  /-- What stands inside, without sigil and surrounding blanks. -/
  content : Text
  /-- Where it starts. -/
  start : Cursor
  /-- Whether the blanks before it are removed. -/
  trimBefore : Bool
  /-- Whether the blanks behind it are removed. -/
  trimAfter : Bool
deriving DecidableEq, Repr

/-- A piece of a template's source. -/
inductive Token where
  /-- A run of text. -/
  | text (raw : Text) (start : Cursor)
  /-- A tag. -/
  | tag (tag : Tag)
deriving DecidableEq, Repr

namespace Token

/-- The source of a token. -/
def raw : Token → Text
  | .text raw _ => raw
  | .tag t => t.raw

/-- Where a token starts. -/
def start : Token → Cursor
  | .text _ start => start
  | .tag t => t.start

/-- A run of text as a list of tokens, which is empty if the text is. -/
def ofRun (run : Text) (start : Cursor) : List Token :=
  if run.isEmpty then [] else [.text run start]

end Token

end Stencil
