import Stencil.Position
import Stencil.Text.Line
import Stencil.Yaml.Scalar

/-!
# The tokens of YAML

Data and configuration are given as YAML texts, and hence also as JSON texts.  The scanner goes
through a text character by character and looks ahead where it has to (`Scanner.step`).

Collections come in two styles.  In *flow* style brackets and commas show the structure.  In *block*
style the columns do: the scanner keeps the columns of the block collections that are open, and a
token further to the left ends them.

What stands in front of a colon is a key, but when the scanner meets the colon the key has been
scanned already.  So it takes note of every place where a key may begin (`PossibleKey`) and puts in
the token for the key later.  A key has to stand on one line together with its colon, and it must
not be longer than 1024 characters.

Anchors, tags, directives and literal blocks are refused.
-/

set_option autoImplicit false

namespace Stencil.Yaml

/-- Why a text cannot be read. -/
inductive Fault where
  /-- The text ends too early. -/
  | unexpectedEnd
  /-- A token stands where none of its kind can. -/
  | unexpectedToken
  /-- The text holds a character that no data may hold. -/
  | badCharacter
  /-- A character cannot begin a token. -/
  | strayCharacter (c : Char)
  /-- A text in quotes holds an escape that does not exist. -/
  | unknownEscape
  /-- There has to be a colon behind a key. -/
  | missingColon
  /-- A scalar has a meaning that is not supported. -/
  | unsupported (scalar : Text)
  /-- A mapping has a key twice. -/
  | duplicateKey
  /-- A mapping or a list of lists or mappings cannot be a key. -/
  | badKey
deriving DecidableEq, Repr

/-- The words for a fault. -/
def Fault.message : Fault → Text
  | .unexpectedEnd => "unexpected end of the text"
  | .unexpectedToken => "unexpected token"
  | .badCharacter => "special characters are not allowed"
  | .strayCharacter c => ("found character '" : Text) ++ [c] ++ "' that cannot start any token"
  | .unknownEscape => "unknown escape in a string"
  | .missingColon => "could not find expected ':'"
  | .unsupported scalar => ("unsupported scalar '" : Text) ++ scalar ++ "'"
  | .duplicateKey => "found duplicate key"
  | .badKey => "found unhashable key"

/-- A token. -/
inductive Token where
  /-- The beginning of a list in flow style. -/
  | listStart
  /-- The end of a list in flow style. -/
  | listEnd
  /-- The beginning of a mapping in flow style. -/
  | mapStart
  /-- The end of a mapping in flow style. -/
  | mapEnd
  /-- What stands between two items or entries in flow style. -/
  | comma
  /-- The beginning of a list in block style. -/
  | blockList
  /-- The beginning of a mapping in block style. -/
  | blockMap
  /-- The end of a list or mapping in block style. -/
  | blockEnd
  /-- The beginning of an item in block style. -/
  | dash
  /-- The beginning of a key. -/
  | key
  /-- The beginning of the value of an entry. -/
  | value
  /-- A scalar. -/
  | scalar (v : Value)
  /-- The mark in front of the data. -/
  | documentStart
  /-- The mark behind the data. -/
  | documentEnd

/-! ## Characters -/

/-- Whether data may hold a character. -/
def isDataChar (c : Char) : Bool :=
  c == '\t' || c == '\n' || c.toNat == 0x85 || (0x20 ≤ c.toNat && c.toNat ≤ 0x7E) ||
    (0xA0 ≤ c.toNat && c.toNat ≠ 0xFFFE && c.toNat ≠ 0xFFFF)

/-- Whether a character is a line break.  Other breaks have been replaced before. -/
def isBreak (c : Char) : Bool :=
  c == '\n' || c.toNat == 0x2028 || c.toNat == 0x2029

/-- Whether a token may be over at the beginning of a text. -/
def isOver (t : Text) : Bool :=
  t.head?.all fun c => c == ' ' || c == '\t' || c == '\n'

/-- The mark of a document that a line begins with. -/
def marker? : Text → Option Token
  | '-' :: '-' :: '-' :: t => if isOver t then some .documentStart else none
  | '.' :: '.' :: '.' :: t => if isOver t then some .documentEnd else none
  | _ => none

/-- Whether a plain scalar can begin with the character `c` in front of `t`. -/
def beginsPlain (inFlow : Bool) (c : Char) (t : Text) : Bool :=
  match c with
  | '-' => !isOver t
  | ':' => if inFlow then t.head? != some ' ' && t.head? != some '\t' else !isOver t
  | '?' => !inFlow && !isOver t
  | c => !(c.isWhitespace || ",[]\x7b\x7d#&*!|>'\"%@\x60".toList.contains c || isBreak c)

/-- Whether a word of a plain scalar is over at the character `c` in front of `t`. -/
def endsWord (inFlow : Bool) (c : Char) (t : Text) : Bool :=
  isOver [c] || (c == ':' && isOver t) || (inFlow && ",[]\x7b\x7d".toList.contains c)

/-! ## The scanner -/

/-- Blanks and breaks inside a scalar.  Characters are collected with the latest first. -/
inductive Gap where
  /-- There are none. -/
  | none
  /-- Blanks in a line. -/
  | blanks (chars : Text)
  /-- The line break `first`, unless it was behind a backslash, and the line breaks `more`. -/
  | breaks (first : Option Char) (more : Text)

namespace Gap

/-- What a gap stands for: blanks for themselves, a line break for a space, and of several line
breaks the first for nothing. -/
def text : Gap → Text
  | .none => []
  | .blanks chars => chars
  | .breaks (some '\n') [] => [' ']
  | .breaks (some '\n') more => more
  | .breaks (some c) more => more ++ [c]
  | .breaks .none more => more

/-- The gap with one more blank.  Blanks around line breaks do not count. -/
def addBlank (c : Char) : Gap → Gap
  | .none => .blanks [c]
  | .blanks chars => .blanks (c :: chars)
  | gap => gap

/-- The gap with one more line break. -/
def addBreak (c : Char) : Gap → Gap
  | .breaks first more => .breaks first (c :: more)
  | _ => .breaks (some c) []

end Gap

/-- What the scanner is in the middle of. -/
inductive Mode where
  /-- Nothing. -/
  | between
  /-- A comment. -/
  | comment
  /-- A plain scalar. -/
  | plain (chars : Text) (gap : Gap)
  /-- A scalar in quotes. -/
  | quoted (quote : Char) (chars : Text) (gap : Gap)

/-- A place where a key may begin. -/
structure PossibleKey where
  /-- The number of tokens in front of it. -/
  index : Nat
  /-- Where it begins. -/
  start : Cursor
  /-- Whether nothing but a key can stand there. -/
  required : Bool

/-- A collection in flow style that is open. -/
structure Level where
  /-- Whether it is a list. -/
  isList : Bool
  /-- Where a key may begin outside of it. -/
  key : Option PossibleKey

/-- The state of the scanner. -/
structure Scanner where
  /-- Where it stands. -/
  cursor : Cursor := .start
  /-- The number of characters that have been read ahead. -/
  ahead : Nat := 0
  /-- What it is in the middle of. -/
  mode : Mode := .between
  /-- The collections in flow style that are open, the innermost first. -/
  levels : List Level := []
  /-- The columns of the collections in block style that are open, the innermost first. -/
  columns : List Nat := []
  /-- Whether a key may begin here. -/
  keyAllowed : Bool := true
  /-- Where a key may have begun. -/
  key : Option PossibleKey := none
  /-- The tokens, the latest first. -/
  tokens : List Token := []
  /-- The number of tokens. -/
  count : Nat := 0

namespace Scanner

/-- Whether the scanner is inside a collection in flow style. -/
def inFlow (s : Scanner) : Bool :=
  !s.levels.isEmpty

/-- Adds a token. -/
def push (s : Scanner) (token : Token) : Scanner :=
  { s with tokens := token :: s.tokens, count := s.count + 1 }

/-- Puts a token where there were `index` tokens. -/
def insert (s : Scanner) (index : Nat) (token : Token) : Scanner :=
  let later := s.count - index
  { s with
    tokens := s.tokens.take later ++ token :: s.tokens.drop later
    count := s.count + 1 }

/-! ### Block collections -/

/-- Ends the block collections to the right of a column. -/
def unwind (s : Scanner) (column : Nat) : Scanner :=
  if s.inFlow then s
  else
    let ended := s.columns.takeWhile (column < ·)
    { ended.foldl (fun s _ => s.push .blockEnd) s with
      columns := s.columns.dropWhile (column < ·) }

/-- Begins a block collection in front of the token `index`, unless one is open at this column. -/
def enter (s : Scanner) (column index : Nat) (token : Token) : Scanner :=
  if s.columns.head?.all (· < column) then
    { s.insert index token with columns := column :: s.columns }
  else s

/-! ### Keys -/

/-- Forgets that a key may have begun, unless nothing else can have. -/
def dropKey (s : Scanner) : Except Fault Scanner :=
  if s.key.any (·.required) then .error .missingColon else .ok { s with key := none }

/-- Takes note that a key may begin here. -/
def saveKey (s : Scanner) : Except Fault Scanner :=
  if s.keyAllowed then do
    let s ← s.dropKey
    let required := !s.inFlow && s.columns.head? = some s.cursor.column
    return { s with key := some ⟨s.count, s.cursor, required⟩ }
  else .ok s

/-- The key that a colon here belongs to. -/
def keyHere? (s : Scanner) : Option PossibleKey :=
  s.key.filter fun key =>
    key.start.line = s.cursor.line && s.cursor.offset - key.start.offset ≤ 1024

/-- A colon. -/
def colon (s : Scanner) : Except Fault Scanner :=
  match s.keyHere? with
  | some key =>
    let s := { s.insert key.index .key with key := none, keyAllowed := false }
    let s := if s.inFlow then s else s.enter key.start.column key.index .blockMap
    .ok (s.push .value)
  | none => do
    let s ← s.dropKey
    if s.inFlow then return { s with keyAllowed := false }.push .value
    else if s.keyAllowed then return (s.enter s.cursor.column s.count .blockMap).push .value
    else .error .unexpectedToken

/-- A question mark, which begins a key of any length. -/
def question (s : Scanner) : Except Fault Scanner := do
  let s ← s.dropKey
  if s.inFlow then return { s with keyAllowed := false }.push .key
  else if s.keyAllowed then return (s.enter s.cursor.column s.count .blockMap).push .key
  else .error .unexpectedToken

/-- A dash, which begins an item in block style. -/
def dash (s : Scanner) : Except Fault Scanner := do
  let s ← s.dropKey
  if s.inFlow || !s.keyAllowed then .error .unexpectedToken
  else return (s.enter s.cursor.column s.count .blockList).push .dash

/-! ### Other tokens -/

/-- The mark at the beginning or at the end of a document. -/
def documentMark (s : Scanner) (token : Token) : Except Fault Scanner := do
  let s ← s.dropKey
  return { (s.unwind 0).push token with keyAllowed := false, ahead := 2 }

/-- The beginning of a list or mapping in flow style. -/
def openFlow (s : Scanner) (isList : Bool) : Except Fault Scanner := do
  let s ← s.saveKey
  return { s.push (if isList then .listStart else .mapStart) with
    levels := ⟨isList, s.key⟩ :: s.levels, key := none, keyAllowed := true }

/-- The end of a list or mapping in flow style. -/
def closeFlow (s : Scanner) (token : Token) : Except Fault Scanner :=
  match s.levels with
  | [] => .error .unexpectedToken
  | level :: levels =>
    .ok { s.push token with levels, key := level.key, keyAllowed := false }

/-- A comma in flow style. -/
def comma (s : Scanner) : Except Fault Scanner :=
  if s.inFlow then .ok { s.push .comma with key := none, keyAllowed := true }
  else .error .unexpectedToken

/-- The beginning of a scalar. -/
def beginScalar (s : Scanner) (mode : Mode) : Except Fault Scanner := do
  let s ← s.saveKey
  return { s with mode, keyAllowed := false }

/-- Whether a colon in front of `t` is a token of its own. -/
def isColon (s : Scanner) (t : Text) : Bool :=
  match s.levels with
  | ⟨false, _⟩ :: _ => true
  | _ => isOver t

/-- Begins the token that starts with the character `c` in front of `t`. -/
def begin (s : Scanner) (c : Char) (t : Text) : Except Fault Scanner :=
  match (if s.cursor.column = 1 then marker? (c :: t) else none) with
  | some token => s.documentMark token
  | none =>
    if c = '[' then s.openFlow true
    else if c = '\x7b' then s.openFlow false
    else if c = ']' then s.closeFlow .listEnd
    else if c = '\x7d' then s.closeFlow .mapEnd
    else if c = ',' then s.comma
    else if c = '-' ∧ isOver t then s.dash
    else if c = '?' ∧ (s.inFlow ∨ isOver t) then s.question
    else if c = ':' ∧ s.isColon t then s.colon
    else if c = '\'' ∨ c = '"' then s.beginScalar (.quoted c [] .none)
    else if beginsPlain s.inFlow c t then s.beginScalar (.plain [c] .none)
    else .error (.strayCharacter c)

/-! ### Going on -/

/-- A character outside of scalars and comments.  A tab is a blank in flow style only. -/
def between (s : Scanner) (c : Char) (t : Text) : Except Fault Scanner :=
  if c = ' ' ∨ (s.inFlow ∧ c = '\t') then .ok s
  else if c = '#' then .ok { s with mode := .comment }
  else if isBreak c then .ok { s with keyAllowed := s.keyAllowed || !s.inFlow }
  else (s.unwind s.cursor.column).begin c t

/-- Ends a plain scalar. -/
def endPlain (s : Scanner) (chars : Text) : Except Fault Scanner :=
  match PlainScalar.value chars.reverse with
  | some v => .ok { s.push (.scalar v) with mode := .between }
  | none => .error (.unsupported chars.reverse)

/-- A line break in a plain scalar.  The mark of a document ends the scalar. -/
def breakPlain (s : Scanner) (chars : Text) (gap : Gap) (t : Text) : Except Fault Scanner :=
  let s := { s with keyAllowed := true }
  if (marker? t).isSome then s.endPlain chars else .ok { s with mode := .plain chars gap }

/-- Whether a plain scalar ends because a line of it does not stand far enough to the right. -/
def isOutdented (s : Scanner) : Gap → Bool
  | .breaks _ _ => !s.inFlow && s.columns.head?.any (s.cursor.column ≤ ·)
  | _ => false

/-- A character in a plain scalar. -/
def inPlain (s : Scanner) (chars : Text) (gap : Gap) (c : Char) (t : Text) :
    Except Fault Scanner :=
  let inWord : Bool := match gap with
    | .none => true
    | _ => false
  if c = ' ' then .ok { s with mode := .plain chars (gap.addBlank c) }
  else if c = '\n' ∨ (!inWord ∧ isBreak c) then s.breakPlain chars (gap.addBreak c) t
  else if endsWord s.inFlow c t ∨ (!inWord ∧ c = '#') ∨ s.isOutdented gap then do
    (← s.endPlain chars).between c t
  else .ok { s with mode := .plain (c :: (gap.text ++ chars)) .none, keyAllowed := false }

/-- What stands behind a backslash, in front of which stand the characters `chars`. -/
def escape (s : Scanner) (chars : Text) (t : Text) : Except Fault Scanner :=
  match t with
  | c :: t' =>
    if isBreak c then
      if (marker? t').isSome then .error .unexpectedToken
      else .ok { s with mode := .quoted '"' chars (.breaks none []), ahead := 1 }
    else
      match Escape.read? t with
      | some (e, ahead) => .ok { s with mode := .quoted '"' (e :: chars) .none, ahead }
      | none => .error .unknownEscape
  | [] => .error .unexpectedEnd

/-- A character in a scalar in quotes.  A single quote in single quotes is written twice. -/
def inQuotes (s : Scanner) (quote : Char) (chars : Text) (gap : Gap) (c : Char) (t : Text) :
    Except Fault Scanner :=
  if c = ' ' ∨ c = '\t' then .ok { s with mode := .quoted quote chars (gap.addBlank c) }
  else if isBreak c then
    if (marker? t).isSome then .error .unexpectedToken
    else .ok { s with mode := .quoted quote chars (gap.addBreak c) }
  else
    let chars := gap.text ++ chars
    if c = quote then
      if c = '\'' ∧ t.head? = some '\'' then
        .ok { s with mode := .quoted quote (c :: chars) .none, ahead := 1 }
      else .ok { s.push (.scalar (.text chars.reverse)) with mode := .between }
    else if quote = '"' ∧ c = '\\' then s.escape chars t
    else .ok { s with mode := .quoted quote (c :: chars) .none }

/-- What the character `c` in front of `t` does, apart from moving the cursor. -/
def react (s : Scanner) (c : Char) (t : Text) : Except Fault Scanner :=
  match s.ahead with
  | ahead + 1 => .ok { s with ahead }
  | 0 =>
    match s.mode with
    | .between => s.between c t
    | .comment => .ok (if c = '\n' then
        { s with mode := .between, keyAllowed := s.keyAllowed || !s.inFlow } else s)
    | .plain chars gap => s.inPlain chars gap c t
    | .quoted quote chars gap => s.inQuotes quote chars gap c t

/-- Goes on behind the character `c` in front of `t`. -/
def step (s : Scanner) (c : Char) (t : Text) : Except Fault Scanner := do
  let s ← s.react c t
  return { s with cursor := s.cursor.step (if isBreak c then '\n' else c) }

/-- The tokens when the text is over. -/
def finish (s : Scanner) : Except Fault (List Token) := do
  let s ←
    match s.mode with
    | .between | .comment => .ok s
    | .plain chars _ => s.endPlain chars
    | .quoted _ _ _ => .error .unexpectedEnd
  let s ← s.dropKey
  return (s.unwind 0).tokens.reverse

/-- Scans what is left of a text. -/
def run (s : Scanner) : Text → Except Fault (List Token)
  | [] => s.finish
  | c :: t => do
    let s ← s.step c t
    s.run t

end Scanner

/-- A text without the mark that may stand at the beginning of a file. -/
def withoutMark : Text → Text
  | '\ufeff' :: t => t
  | t => t

/-- A text in which every line ends in a line feed, as far as the end of a line is no character of
its own. -/
def unifyBreaks (t : Text) : Text :=
  (Text.unifyLineBreaks t).map fun c => if c.toNat = 0x85 then '\n' else c

/-- The tokens of a text. -/
def tokens (t : Text) : Except Fault (List Token) :=
  let t := unifyBreaks (withoutMark t)
  if t.all isDataChar then Scanner.run {} t else .error .badCharacter

end Stencil.Yaml
