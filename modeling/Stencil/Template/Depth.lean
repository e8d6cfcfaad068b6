import Stencil.Template

/-!
# How deeply groups are nested in a source

Sections may be nested as deeply as one likes.  The calls in parentheses in the parameters of a tag
may not, because a reader that descends into each of them has as many calls in progress as there are
groups open around the place where it stands.

`ArgGroup.depthRead` is the number of groups that are open at once while the parameters of a tag are
read, and `Template.depthRead` the greatest such number in a source.  Only what is read counts: the
tokens of a tag up to the first that is refused, and the tags up to the first that is.

`Template.compileWithin` compiles a source with a reader that has room for some number of groups.
-/

set_option autoImplicit false

namespace Stencil

/-- The number of groups that are open at once while tokens are read. -/
def ArgReader.depthFrom (source : Text) (r : ArgReader) : List ArgToken → Nat
  | [] => r.outer.length
  | t :: ts =>
    match r.step source t with
    | .error _ => r.outer.length
    | .ok r' => max r.outer.length (r'.depthFrom source ts)

/-- The number of groups that are open at once while the parameters of a source are read. -/
def ArgGroup.depthRead (head : ArgHead) (source : Text) : Nat :=
  match lex source with
  | .error _ => 0
  | .ok tokens => ArgReader.depthFrom source ⟨.empty head, []⟩ tokens

/-- The number of groups that are open at once while the parameters of a tag are read. -/
def Tag.depthRead (tag : Tag) : Nat :=
  match tag.kind with
  | .escaped | .unescaped | .block | .inverted | .otherwise =>
    ArgGroup.depthRead .callAwaited tag.content
  | .partialRef => ArgGroup.depthRead .partialAwaited tag.content
  | .comment | .delimiters _ | .close => 0

namespace TreeBuilder

/-- Whether the innermost section can go on with its other branch. -/
def takesElse (b : TreeBuilder) : Bool :=
  match b.blocks with
  | [] => false
  | inner :: _ => inner.inverse.isNone

/-- The number of groups that are open at once while the next piece is read.  An else tag that is
out of place is refused before its parameters are read. -/
def depthRead (b : TreeBuilder) : Piece → Nat
  | .text _ => 0
  | .tag tag _ => if tag.kind = .otherwise ∧ !b.takesElse then 0 else tag.depthRead

/-- The greatest number of groups that are open at once while pieces are read. -/
def depthFrom (b : TreeBuilder) : List Piece → Nat
  | [] => 0
  | p :: ps =>
    match b.step p with
    | .error _ => b.depthRead p
    | .ok b' => max (b.depthRead p) (b'.depthFrom ps)

end TreeBuilder

namespace Template

/-- The greatest number of groups that are open at once while a source is read. -/
def depthRead (options : CompileOptions) (source : Text) : Nat :=
  let scanned := scan options.delimiters source
  match scanned.finish with
  | .error _ => 0
  | .ok _ => TreeBuilder.empty.depthFrom (Piece.arrange scanned.tokens)

/-- Compiles a source with a reader that has room for some number of groups; there is no outcome if
it needs more. -/
def compileWithin (room : Nat) (known : KnownHelpers) (options : CompileOptions)
    (name source : Text) : Option Compilation :=
  if room < depthRead options source then none else some (compile known options name source)

/-- What has been recorded before the parameters of tags are read. -/
def scanEvents (options : CompileOptions) (source : Text) : List Event :=
  let tokens := (scan options.delimiters source).tokens
  Token.events tokens ++ [.scanned source.length (tokens.length + 1)]

end Template

end Stencil
