import Stencil.Expr.Basic
import Stencil.Expr.Token

/-!
# Reading a parameter list

A call is a name followed by positional parameters and then named ones; a partial tag is the name
of a partial followed by at most one context and then named bindings.  A parameter may itself be a
call in parentheses.

The tokens are taken one by one, from left to right, into an `ArgReader`: the group that is being
filled, and the groups around it that wait for it to close.  A token that cannot follow what has
been read is refused at once (`ArgReader.step`), and what may not end there is refused at the end
(`ArgReader.finish`).  Because the whole reading is a fold over the tokens, what has been read so
far and the next token decide how it goes on.

Groups may be open in any number, and numerals may be of any length.  A reader that descends into
the groups has room for some of them only, which is what `Template.compileWithin` adds, and integers
of more than 4300 digits may be refused by the interpreter that it runs on.
-/

set_option autoImplicit false

namespace Stencil

/-! ## Values of single tokens -/

/-- Takes the backslash away from every escaped character. -/
def unescape : Text → Text
  | '\\' :: c :: t => c :: unescape t
  | c :: t => c :: unescape t
  | [] => []

/-- The text that stands between the quotes of a token. -/
def unquote (raw : Text) : Text :=
  unescape (raw.drop 1).dropLast

/-- The number that a token writes: fractional if there is a point in it. -/
def Literal.ofNumber (raw : Text) : Literal :=
  match Numeral.split? raw with
  | some n => if n.fraction.isSome then .float n.toBinary64 else .int n.toInt
  -- every number token is a numeral
  | none => .undefined

/-- The name of a partial that a word or number stands for: brackets around all of it are left
out. -/
def partialNameOf (raw : Text) : Text :=
  let inside := (raw.drop 1).dropLast
  if raw.length > 2 ∧ raw.head? = some '[' ∧ raw.getLast? = some ']' ∧ ']' ∉ inside then inside
  else raw

/-- The parameter that a single token writes, if it is one. -/
def Expr.ofLexeme? : Lexeme → Option (Except SyntaxFault Expr)
  | .quoted raw => some (.ok (.literal raw (.text (unquote raw))))
  | .number raw => some (.ok (.literal raw (.ofNumber raw)))
  | .word raw =>
    match Literal.ofKeyword? raw with
    | some value => some (.ok (.literal raw value))
    | none => some ((Path.parse raw).map .path)
  | .opening | .closing | .key _ => none

/-- The name of a partial that a single token writes, if it is one. -/
def Expr.partialName? : Lexeme → Option Expr
  | .quoted raw => some (.literal raw (.text (unquote raw)))
  | .number raw | .word raw => some (.literal raw (.text (partialNameOf raw)))
  | .opening | .closing | .key _ => none

/-! ## Groups -/

/-- What a group of parameters belongs to. -/
inductive ArgHead where
  /-- A call whose name has not been read yet. -/
  | callAwaited
  /-- A call. -/
  | call (path : Path)
  /-- A partial tag whose name has not been read yet. -/
  | partialAwaited
  /-- A partial tag. -/
  | partialTag (name : Expr)

/-- A group of parameters as far as it has been read. -/
structure ArgGroup where
  /-- What the parameters belong to. -/
  head : ArgHead
  /-- The positional parameters. -/
  params : List Expr
  /-- The named parameters. -/
  named : List (Text × Expr)
  /-- A key whose value has not been read yet. -/
  pending : Option Text

namespace ArgGroup

/-- A group of which nothing has been read. -/
def empty (head : ArgHead) : ArgGroup := ⟨head, [], [], none⟩

/-- Adds a parameter: the awaited name of a partial, the value of the pending key, or else a
positional parameter. -/
def add (g : ArgGroup) (e : Expr) : ArgGroup :=
  match g.head, g.pending with
  | .partialAwaited, _ => { g with head := .partialTag e }
  | _, some key => { g with named := g.named ++ [(key, e)], pending := none }
  | _, none => { g with params := g.params ++ [e] }

/-- Why the group cannot take a positional parameter, if it cannot. -/
def refusal? (g : ArgGroup) (lexeme : Lexeme) : Option ArgumentFault :=
  if g.pending.isNone ∧ g.named ≠ [] then some (.positionalAfterNamed lexeme.text) else none

/-- Why the group is not complete, if it is not. -/
def incomplete? (g : ArgGroup) : Option ArgumentFault :=
  match g.pending, g.head with
  | some key, _ => some (.missingValue key)
  | none, .partialTag _ => if g.params.length > 1 then some .tooManyContexts else none
  | none, _ => none

end ArgGroup

/-- What has been read of a parameter list. -/
structure ArgReader where
  /-- The innermost open group. -/
  inner : ArgGroup
  /-- The groups around it, innermost first, each with the offset of the parenthesis that opened
  the group inside it. -/
  outer : List (ArgGroup × Nat)

namespace ArgReader

/-- Adds a parameter to the innermost group. -/
def add (r : ArgReader) (e : Expr) : ArgReader :=
  { r with inner := r.inner.add e }

/-- Opens a group whose parenthesis stands at `offset`. -/
def opened (r : ArgReader) (offset : Nat) : ArgReader :=
  ⟨.empty .callAwaited, (r.inner, offset) :: r.outer⟩

/-- The characters of the source from one offset up to another. -/
def slice (source : Text) (start stop : Nat) : Text :=
  (source.drop start).take (stop - start)

/-- Closes the innermost group with a parenthesis that ends at `stop`. -/
def close (source : Text) (r : ArgReader) (stop : Nat) : Except ArgumentFault ArgReader :=
  match r.inner.incomplete? with
  | some fault => .error fault
  | none =>
    match r.outer, r.inner.head with
    | (group, start) :: outer, .call path =>
      .ok ⟨group.add (.call (slice source start stop) path r.inner.params r.inner.named), outer⟩
    | _, _ => .error (.unexpectedToken [')'])

/-- Takes the next token. -/
def step (source : Text) (r : ArgReader) (t : ArgToken) : Except SyntaxFault ArgReader :=
  let refuse (fault : ArgumentFault) : Except SyntaxFault ArgReader :=
    .error (.arguments fault source)
  match r.inner.head, t.lexeme with
  | .callAwaited, .word raw =>
    if (Literal.ofKeyword? raw).isSome then refuse (.expectedName raw)
    else
      (Path.parse raw).map fun path =>
        { r with inner := { r.inner with head := .call path } }
  | .callAwaited, lexeme => refuse (.expectedName lexeme.text)
  | .partialAwaited, .opening => .ok (r.opened t.start)
  | .partialAwaited, lexeme =>
    match Expr.partialName? lexeme with
    | some name => .ok (r.add name)
    | none => refuse .expectedPartialName
  | _, .closing =>
    match r.close source t.stop with
    | .ok r => .ok r
    | .error fault => refuse fault
  | _, .key name =>
    if r.inner.pending.isSome then refuse (.unexpectedToken name)
    else .ok { r with inner := { r.inner with pending := some name } }
  | _, .opening =>
    match r.inner.refusal? .opening with
    | some fault => refuse fault
    | none => .ok (r.opened t.start)
  | _, lexeme =>
    match r.inner.refusal? lexeme, Expr.ofLexeme? lexeme with
    | some fault, _ => refuse fault
    | none, some value => value.map r.add
    | none, none => refuse (.unexpectedToken lexeme.text)

/-- The outermost group at the end of the tokens. -/
def finish (r : ArgReader) : Except ArgumentFault ArgGroup :=
  match r.outer, r.inner.head with
  | _ :: _, .callAwaited => .error (.expectedName [])
  | [], .callAwaited | [], .partialAwaited => .error .empty
  | outer, _ =>
    match r.inner.incomplete? with
    | some fault => .error fault
    | none => if outer.isEmpty then .ok r.inner else .error .unclosedGroup

end ArgReader

/-- Reads the parameters of `source` into a group with the given head. -/
def ArgGroup.read (head : ArgHead) (source : Text) : Except SyntaxFault ArgGroup :=
  match lex source with
  | .error ⟨char, offset⟩ => .error (.arguments (.unexpectedCharacter char offset) source)
  | .ok tokens =>
    match tokens.foldlM (ArgReader.step source) ⟨.empty head, []⟩ with
    | .error fault => .error fault
    | .ok reader =>
      match reader.finish with
      | .error fault => .error (.arguments fault source)
      | .ok group => .ok group

/-- Reads a call: the content of an output tag, a section or an else tag. -/
def Call.parse (position : Position) (source : Text) : Except TemplateError Call :=
  match ArgGroup.read .callAwaited source with
  | .error fault => .error (.malformed fault position)
  | .ok group =>
    match group.head with
    | .call path => .ok ⟨path, group.params, group.named⟩
    | _ => .error (.malformed (.arguments .empty source) position)

/-- Reads the content of a partial tag. -/
def PartialCall.parse (position : Position) (source : Text) : Except TemplateError PartialCall :=
  match ArgGroup.read .partialAwaited source with
  | .error fault => .error (.malformed fault position)
  | .ok group =>
    match group.head with
    | .partialTag name => .ok ⟨name, group.params.head?, group.named⟩
    | _ => .error (.malformed (.arguments .empty source) position)

end Stencil
