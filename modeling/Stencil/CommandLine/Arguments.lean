import Stencil.Text.Digit

/-!
# The words of a command line

A command line names a command, `render` or `check`, and then a template, with options anywhere
behind the command.

* A long option may be cut short as long as only one option begins that way, and its value may
  follow an equals sign.
* Short options may be written together.
* A word that starts with a dash is no option if it is a dash alone, a negative number, or if it
  contains a space and no option begins that way.  Behind `--` nothing is an option.
* The last of several values for the same option counts.

`Reading.ofWords` says what the words ask for.  It does not look at any file.
-/

set_option autoImplicit false

namespace Stencil.CommandLine

/-! ## What can be asked for -/

/-- What is wanted with a template. -/
inductive Purpose where
  /-- Its output for some data. -/
  | render
  /-- The names that it mentions. -/
  | check
deriving DecidableEq, Repr

/-- The purpose that a word names. -/
def Purpose.ofWord? (t : Text) : Option Purpose :=
  if t = "render".toList then some .render
  else if t = "check".toList then some .check
  else none

/-- An option. -/
inductive Switch where
  /-- Asks for help. -/
  | help
  /-- Asks for the version. -/
  | version
  /-- Names the directory of partials. -/
  | partials
  /-- Gives the ending of the files of partials. -/
  | suffix
  /-- Names the file of the configuration. -/
  | config
  /-- Makes undefined paths an error. -/
  | strict
  /-- Gives helpers the source of their parameters. -/
  | stringParams
  /-- Gives the delimiters. -/
  | delimiters
  /-- Shows the whole log. -/
  | verbose
  /-- Names the file of the data. -/
  | data
deriving DecidableEq, Repr

namespace Switch

/-- The long name. -/
def longName : Switch → Text
  | .help => "--help"
  | .version => "--version"
  | .partials => "--partials"
  | .suffix => "--suffix"
  | .config => "--config"
  | .strict => "--strict"
  | .stringParams => "--string-params"
  | .delimiters => "--delimiters"
  | .verbose => "--verbose"
  | .data => "--data"

/-- The letter of a short name. -/
def letter? : Switch → Option Char
  | .help => some 'h'
  | .verbose => some 'v'
  | _ => none

/-- Whether an option has a value. -/
def takesValue : Switch → Bool
  | .partials | .suffix | .config | .delimiters | .data => true
  | _ => false

/-- The options in front of the command. -/
def general : List Switch := [.help, .version]

/-- The options behind a command. -/
def offered : Purpose → List Switch
  | .render =>
    [.help, .partials, .suffix, .config, .strict, .stringParams, .delimiters, .verbose, .data]
  | .check => [.help, .partials, .suffix, .config, .strict, .stringParams, .delimiters, .verbose]

end Switch

/-- A command with a template. -/
structure Command where
  /-- What is wanted. -/
  purpose : Purpose
  /-- The file of the template; a dash stands for the standard input. -/
  template : Text
  /-- The options that are given, with their values; the latest first. -/
  given : List (Switch × Text)
deriving DecidableEq, Repr

namespace Command

/-- The value of an option. -/
def value? (c : Command) (s : Switch) : Option Text :=
  c.given.lookup s

/-- The value of an option, unless it is empty. -/
def nonemptyValue? (c : Command) (s : Switch) : Option Text :=
  (c.value? s).filter fun t => !t.isEmpty

/-- Whether an option is given. -/
def has (c : Command) (s : Switch) : Bool :=
  (c.value? s).isSome

end Command

/-- What a command line asks for. -/
inductive Reading where
  /-- Help. -/
  | help
  /-- The version. -/
  | version
  /-- A command. -/
  | command (c : Command)
  /-- Nothing that makes sense. -/
  | misuse
deriving DecidableEq, Repr

/-! ## Kinds of words -/

/-- A word of a command line, seen by itself. -/
inductive Word where
  /-- A word that is no option. -/
  | operand (t : Text)
  /-- The word behind which there are no options. -/
  | terminator
  /-- A long option, possibly with a value. -/
  | option (s : Switch) (attached : Option Text)
  /-- Short options. -/
  | letters (ss : List Switch)
  /-- A word that begins with a short option and goes wrong then. -/
  | malformed
  /-- A word that several options begin with. -/
  | ambiguous
  /-- An option that does not exist. -/
  | unknown
deriving DecidableEq, Repr

namespace Word

/-- Whether a text is at its end, or a line feed away from it. -/
def isAtEnd (t : Text) : Bool :=
  t = [] || t = ['\n']

/-- Whether a text writes a negative number.  One line feed may stand behind it. -/
def isNegativeNumber : Text → Bool
  | '-' :: t =>
    let (whole, rest) := t.span isDecimalDigit
    match rest with
    | '.' :: t =>
      let (fraction, rest) := t.span isDecimalDigit
      !fraction.isEmpty && isAtEnd rest
    | rest => !whole.isEmpty && isAtEnd rest
  | _ => false

/-- A word that starts with a dash although no option does. -/
def other (t : Text) : Word :=
  if isNegativeNumber t || t.contains ' ' then .operand t else .unknown

/-- The value behind an equals sign.  Two dashes are not taken for a value there. -/
def attached? (t : Text) : Option Text :=
  (t.dropWhile (· != '=')).tail?.map fun v => if v = ['-', '-'] then [] else v

/-- A word that starts with two dashes. -/
def ofLong (offered : List Switch) (t : Text) : Word :=
  let name := t.takeWhile (· != '=')
  match offered.find? fun s => s.longName = name with
  | some s => .option s (attached? t)
  | none =>
    match offered.filter fun s => name.isPrefixOf s.longName with
    | [] => other t
    | [s] => .option s (attached? t)
    | _ => .ambiguous

/-- A word that starts with one dash, followed by letters.  An equals sign may stand behind the
first letter. -/
def ofLetters (offered : List Switch) (letters : Text) : Word :=
  let find (c : Char) : Option Switch := offered.find? fun s => s.letter? = some c
  let cluster :=
    match letters with
    | first :: '=' :: next :: rest => first :: next :: rest
    | letters => letters
  match cluster.mapM find with
  | some ss => .letters ss
  | none => if (letters.head?.bind find).isSome then .malformed else other ('-' :: letters)

/-- A word by itself. -/
def ofText (offered : List Switch) (t : Text) : Word :=
  match t with
  | ['-', '-'] => .terminator
  | '-' :: '-' :: _ => ofLong offered t
  | '-' :: c :: rest => ofLetters offered (c :: rest)
  | t => .operand t

/-- The words of a command line; none of them is an option behind the terminator. -/
def ofTexts (offered : List Switch) : List Text → List Word
  | [] => []
  | t :: ts =>
    match ofText offered t with
    | .terminator => .terminator :: ts.map .operand
    | word => word :: ofTexts offered ts

end Word

/-! ## Reading the words -/

/-- A command that is being read. -/
structure Draft where
  /-- What is wanted. -/
  purpose : Purpose
  /-- The template, once it has been named. -/
  template : Option Text
  /-- The options so far, the latest first. -/
  given : List (Switch × Text)
  /-- Whether there are words that nothing asks for. -/
  surplus : Bool

namespace Draft

/-- The command, once all words have been read. -/
def finish (d : Draft) : Reading :=
  match d.template, d.surplus with
  | some template, false => .command ⟨d.purpose, template, d.given⟩
  | _, _ => .misuse

/-- Reads the words behind the command.  The terminator may stand on either side of the template. -/
def read (d : Draft) : List Word → Reading
  | [] => d.finish
  | .operand t :: rest =>
    match d.template, rest with
    | none, .terminator :: rest => read { d with template := some t } rest
    | none, rest => read { d with template := some t } rest
    | some _, rest => read { d with surplus := true } rest
  | .terminator :: rest => read { d with surplus := d.surplus || d.template.isSome } rest
  | .option s (some v) :: rest =>
    if s.takesValue then read { d with given := (s, v) :: d.given } rest else .misuse
  | .option s none :: rest =>
    if s = .help then .help
    else if s.takesValue then
      match rest with
      | .operand v :: rest => read { d with given := (s, v) :: d.given } rest
      | _ => .misuse
    else read { d with given := (s, []) :: d.given } rest
  | .letters ss :: rest =>
    if ss.contains .help then .help
    else read { d with given := ss.map (fun s => (s, [])) ++ d.given } rest
  | .malformed :: _ | .ambiguous :: _ => .misuse
  | .unknown :: rest => read { d with surplus := true } rest

end Draft

/-- Reads the words from some place in front of the command on. -/
def Reading.ofWordsFrom (surplus : Bool) : List Text → Reading
  | [] => .misuse
  | t :: ts =>
    match Word.ofText Switch.general t with
    | .operand t =>
      match Purpose.ofWord? t with
      | none => .misuse
      | some purpose =>
        let words := Word.ofTexts (Switch.offered purpose) ts
        if words.contains .ambiguous then .misuse
        else Draft.read ⟨purpose, none, [], surplus⟩ words
    | .option .version none => .version
    | .option _ none | .letters _ => .help
    | .unknown => ofWordsFrom true ts
    | _ => .misuse

/-- Says what the words of a command line ask for.  None of them, wherever it stands, may begin
several of the options in front of the command. -/
def Reading.ofWords (ts : List Text) : Reading :=
  if (Word.ofTexts Switch.general ts).contains .ambiguous then .misuse
  else Reading.ofWordsFrom false ts

end Stencil.CommandLine
