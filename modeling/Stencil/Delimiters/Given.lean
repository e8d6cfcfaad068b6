import Stencil.Template

/-!
# Delimiters that are given as values

Who compiles a template may give the delimiters as a value: a pair of texts, or anything that yields
two texts when one goes through it, such as a text of two characters or a mapping with two keys.
`Delimiters.ofValue` reads it.  `DelimitersFault` says why a value yields no delimiters: there are
not two of them, one of them is empty or holds a blank or an equals sign, or they are not even
texts.
-/

set_option autoImplicit false

namespace Stencil

/-- Whether a value is as good as none: one that fails the condition of control flow, or a mapping
without entries. -/
def Value.isVoid : Value → Bool
  | .map entries => entries.isEmpty
  | v => !v.isTruthy false

/-- Why a value cannot serve as delimiters. -/
inductive DelimitersFault where
  /-- It yields no two texts, or texts that are useless. -/
  | malformed (fault : SyntaxFault)
  /-- A value cannot be gone through. -/
  | notIterable (typeName : Text)
  /-- Two values cannot be put together. -/
  | notJoinable (left right : Text)
  /-- A value stands where a character should. -/
  | notCharacter (typeName : Text)
deriving DecidableEq, Repr

/-- The words for faulty delimiters. -/
def DelimitersFault.message : DelimitersFault → Text
  | .malformed fault => fault.message
  | .notIterable typeName => ['\''] ++ typeName ++ "' object is not iterable"
  | .notJoinable left right =>
    if left = "bytes".toList then ("can't concat " : Text) ++ right ++ " to bytes"
    else if left = "str".toList ∨ left = "list".toList ∨ left = "tuple".toList then
      ("can only concatenate " : Text) ++ left ++ " (not \"" ++ right ++ "\") to " ++ left
    else
      ("unsupported operand type(s) for +: '" : Text) ++ left ++ "' and '" ++ right ++ ['\'']
  | .notCharacter typeName => ['\''] ++ typeName ++ "' object has no attribute 'isspace'"

namespace Delimiters

/-- Why two values of which at least one is no text are no delimiters.  Both have to be something,
and it has to be possible to put them together and go through the result. -/
def fault (opening closing : Value) : DelimitersFault :=
  let useless : DelimitersFault :=
    .malformed (.badDelimiters opening.literal closing.literal)
  if opening.isVoid || closing.isVoid then useless
  else
    match opening, closing with
    | .list _, .list _ | .tuple _, .tuple _ => useless
    | .bytes _, .bytes _ => .notCharacter (Value.int 0).typeName
    | .safe t, closing => .notJoinable (Value.text t).typeName closing.typeName
    | opening, closing =>
      if opening.asInt?.isSome && closing.asInt?.isSome then .notIterable (Value.int 0).typeName
      else if opening.asNumber?.isSome && closing.asNumber?.isSome then
        .notIterable (Value.float (.zero false)).typeName
      else .notJoinable opening.typeName closing.typeName

/-- The delimiters that the elements of a value are. -/
def ofElements : List Value → Except DelimitersFault Delimiters
  | [opening, closing] =>
    match opening.asText?, closing.asText? with
    | some o, some c =>
      match ofPair? o c with
      | some d => .ok d
      | none => .error (.malformed (.badDelimiters opening.literal closing.literal))
    | _, _ => .error (fault opening closing)
  | vs => .error (.malformed (.delimiterShape (Value.tuple vs).literal))

/-- The delimiters that a value yields when one goes through it. -/
def ofValue (v : Value) : Except DelimitersFault Delimiters :=
  match v.elements? with
  | some vs => ofElements vs
  | none => .error (.notIterable v.typeName)

end Delimiters

/-- Options of which the delimiters may be given as a value. -/
def CompileOptions.ofValues (delimiters : Option Value) (stringParams strict : Bool) :
    Except DelimitersFault CompileOptions :=
  match delimiters with
  | none => .ok { stringParams, strict }
  | some v => (Delimiters.ofValue v).map fun delimiters => { delimiters, stringParams, strict }

end Stencil
