import Stencil.Position
import Stencil.Text.Quoted

/-!
# What can go wrong

Errors are told apart by their cause.  `SyntaxFault` lists the ways in which a template, or one of
its tags, can be malformed, and `TemplateError` everything that can stop the compilation or the
rendering of a template.  The wording is in `SyntaxFault.message` and `TemplateError.message`, and
nowhere else; a place in the source follows the words as `at LINE:COLUMN` when it is known.
-/

set_option autoImplicit false

namespace Stencil

/-- The way in which the parameters of a tag are malformed. -/
inductive ArgumentFault where
  /-- No parameter starts with this character. -/
  | unexpectedCharacter (char : Char) (offset : Nat)
  /-- The tag has no content. -/
  | empty
  /-- A call has to begin with a name. -/
  | expectedName (found : Text)
  /-- A partial tag has to begin with the name of the partial. -/
  | expectedPartialName
  /-- A key is not followed by a value. -/
  | missingValue (key : Text)
  /-- A positional parameter follows a named one. -/
  | positionalAfterNamed (found : Text)
  /-- A partial tag has more than one context. -/
  | tooManyContexts
  /-- A token stands where none of its kind can. -/
  | unexpectedToken (found : Text)
  /-- A sub-expression is not closed. -/
  | unclosedGroup
deriving DecidableEq, Repr

/-- The way in which a template is malformed. -/
inductive SyntaxFault where
  /-- A tag is not closed. -/
  | unterminated (closing : Text)
  /-- A tag of this kind has no content. -/
  | emptyTag (kind : Text)
  /-- A tag that should set the delimiters does not name two. -/
  | badRedefinition (content : Text)
  /-- An else tag stands outside every section. -/
  | elseOutside
  /-- A section has two else tags. -/
  | duplicateElse (name : Text)
  /-- The parameters of a tag are malformed. -/
  | arguments (fault : ArgumentFault) (source : Text)
  /-- A bracket in a path is not closed. -/
  | unclosedBracket (path : Text)
  /-- A parent marker follows a segment. -/
  | parentAfterSegment (path : Text)
  /-- A data path names no variable. -/
  | emptyDataPath (path : Text)
  /-- A built-in block helper has the wrong number of positional parameters. -/
  | arity (name : Text) (expected actual : Nat)
  /-- What is given as delimiters is no pair; `shown` is its literal. -/
  | delimiterShape (shown : Text)
  /-- One of two values cannot be a delimiter; the texts are their literals. -/
  | badDelimiters (opening closing : Text)
  /-- A helper reports a malformed template in its own words. -/
  | reported (message : Text)
deriving DecidableEq, Repr

/-- A level of nesting during rendering. -/
inductive Label where
  /-- A section. -/
  | block (name : Text)
  /-- An inverted section. -/
  | inverted (name : Text)
  /-- A partial. -/
  | partialNamed (name : Text)
deriving DecidableEq, Repr

/-- Why a template cannot be compiled or rendered. -/
inductive TemplateError where
  /-- The template is malformed. -/
  | malformed (fault : SyntaxFault) (position : Position)
  /-- A closing tag does not belong to the innermost open section, or to none. -/
  | mismatchedSection (expected : Option Text) (found : Text) (position : Position)
  /-- A section is not closed. -/
  | unclosedSection (name : Text) (position : Position)
  /-- No partial has this name. -/
  | partialNotFound (name : Text)
  /-- A tag with parameters names no helper. -/
  | helperMissing (name : Text) (position : Position)
  /-- A helper failed for a reason of its own. -/
  | helperFailed (name kind reason : Text) (position : Position)
  /-- A path leads nowhere although strict rendering was asked for. -/
  | undefinedVariable (path segment : Text)
  /-- A path leads past the root context. -/
  | pastRoot (path : Text) (depth : Nat)
  /-- Sections and partials are nested too deeply; the outermost level comes first. -/
  | recursionLimit (limit : Nat) (chain : List Label)
  /-- A helper refuses to render, in its own words. -/
  | refused (message : Text)
deriving DecidableEq, Repr

/-- Something else that has been raised, as where a file cannot be read: of what kind it is, and its
words. -/
structure ForeignError where
  /-- The kind. -/
  kind : Text
  /-- The words. -/
  reason : Text
deriving DecidableEq, Repr

/-- The words for a malformed parameter list. -/
def ArgumentFault.message : ArgumentFault → Text
  | .unexpectedCharacter char offset =>
    ("Unexpected character '" : Text) ++ [char] ++ "' at position " ++ Text.ofNat offset
  | .empty => "Empty expression"
  | .expectedName found => ("Expected a name, got '" : Text) ++ found ++ ['\'']
  | .expectedPartialName => "Expected a partial name"
  | .missingValue key => ("Missing value for '" : Text) ++ key ++ "='"
  | .positionalAfterNamed found =>
    ("Positional parameter '" : Text) ++ found ++ "' after hash parameters"
  | .tooManyContexts => "A partial accepts at most one context parameter"
  | .unexpectedToken found => ("Unexpected token '" : Text) ++ found ++ ['\'']
  | .unclosedGroup => "Expected ')' after sub-expression"

/-- The words for a malformed template. -/
def SyntaxFault.message : SyntaxFault → Text
  | .unterminated closing => ("Unterminated tag, expected '" : Text) ++ closing ++ ['\'']
  | .emptyTag kind => ("Empty " : Text) ++ kind ++ " tag"
  | .badRedefinition content =>
    ("Invalid delimiter redefinition '" : Text) ++ content ++ "', expected '=<open> <close>='"
  | .elseOutside => "'else' outside of a section"
  | .duplicateElse name => ("Duplicate 'else' in section '" : Text) ++ name ++ ['\'']
  | .arguments fault source => fault.message ++ " in '" ++ source ++ ['\'']
  | .unclosedBracket path => ("Unclosed '[' in path '" : Text) ++ path ++ ['\'']
  | .parentAfterSegment path => ("Invalid path '" : Text) ++ path ++ "': '..' must lead the path"
  | .emptyDataPath path => ("Invalid data variable '" : Text) ++ path ++ ['\'']
  | .arity name expected actual =>
    ['\''] ++ name ++ "' expects exactly " ++ Text.ofNat expected ++ " parameter(s), got " ++
      Text.ofNat actual
  | .delimiterShape shown => ("Delimiters must be a pair of strings, got " : Text) ++ shown
  | .badDelimiters opening closing =>
    ("Invalid delimiters " : Text) ++ opening ++ " " ++ closing
  | .reported message => message

/-- The place that follows the words of an error, if it is known. -/
def Position.suffix (p : Position) : Text :=
  if p.line = 0 then [] else (" at " : Text) ++ Text.ofNat p.line ++ ":" ++ Text.ofNat p.column

/-- The text of a level of nesting. -/
def Label.toText : Label → Text
  | .block name => ("section:" : Text) ++ name
  | .inverted name => ("section:^" : Text) ++ name
  | .partialNamed name => ("partial:" : Text) ++ name

/-- The last ten levels of a chain, with dots for those that are left out. -/
def Label.chainText (chain : List Label) : Text :=
  (if chain.length > 10 then "... -> " else "" : Text) ++
    Text.join " -> " ((chain.drop (chain.length - 10)).map Label.toText)

/-- The words for an error. -/
def TemplateError.message : TemplateError → Text
  | .malformed fault position => fault.message ++ position.suffix
  | .mismatchedSection none found position =>
    ("Unexpected closing tag '\x7b\x7b/" : Text) ++ found ++ "\x7d\x7d'" ++ position.suffix
  | .mismatchedSection (some expected) found position =>
    ['\''] ++ expected ++ "' doesn't match '" ++ found ++ "'" ++ position.suffix
  | .unclosedSection name position =>
    ("Unclosed section '" : Text) ++ name ++ "' opened" ++ position.suffix
  | .partialNotFound name => ("The partial '" : Text) ++ name ++ "' could not be found"
  | .helperMissing name position => ("Missing helper: '" : Text) ++ name ++ "'" ++ position.suffix
  | .helperFailed name kind reason position =>
    ("Helper '" : Text) ++ name ++ "' failed" ++ position.suffix ++ ": " ++ kind ++ ": " ++ reason
  | .undefinedVariable path segment =>
    if segment = [] ∨ segment = path then ['\''] ++ path ++ "' not defined"
    else ['\''] ++ segment ++ "' not defined in '" ++ path ++ "'"
  | .pastRoot path depth =>
    ("Path '" : Text) ++ path ++ "' walks " ++ Text.ofNat depth ++
      " level(s) up, past the root context"
  | .recursionLimit limit chain =>
    ("Recursion limit of " : Text) ++ Text.ofNat limit ++ " exceeded: " ++ Label.chainText chain
  | .refused message => message

end Stencil
