import Stencil.Delimiters.Given
import Stencil.Escape
import Stencil.FilePath

/-!
# Configuration

An engine is configured by a record that can be read from a mapping, as a configuration file holds
one.  `EngineConfig.ofEntries` either answers a configuration or says what is wrong with the first
faulty setting, in a fixed order: unknown settings, delimiters, escaping, the two flags, the
nesting depth, the size of the cache, and at last the characters of the delimiters.

The bounds of the nesting depth are part of the type.
-/

set_option autoImplicit false

namespace Stencil

/-- The ways of escaping output that a configuration can name. -/
inductive EscapeMode where
  /-- For markup. -/
  | html
  /-- Not at all. -/
  | plain
deriving DecidableEq, Repr

namespace EscapeMode

/-- The word for a mode. -/
def name : EscapeMode → Text
  | .html => "html"
  | .plain => "none"

/-- The mode that a word stands for. -/
def ofName? (t : Text) : Option EscapeMode :=
  [html, plain].find? fun mode => mode.name = t

/-- The escaper of a mode. -/
def escaper : EscapeMode → Escaper
  | .html => Escaper.html
  | .plain => Escaper.plain

end EscapeMode

/-- What is wrong with a configuration. -/
inductive ConfigError where
  /-- Settings that do not exist. -/
  | unknownSettings (names : List Text)
  /-- The name of a setting is no text, but of the given type. -/
  | settingNotText (typeName : Text)
  /-- Names of settings are of two types that have no order. -/
  | settingsUnordered (left right : Text)
  /-- The delimiters are no pair. -/
  | delimiterShape (shown : Text)
  /-- A text cannot serve as a delimiter. -/
  | badDelimiters (opening closing : Text)
  /-- There is no such way of escaping. -/
  | unknownEscape (name : Text)
  /-- A flag is no truth value. -/
  | notFlag (name shown : Text)
  /-- A number is no integer or too small. -/
  | notInteger (name : Text) (minimum : Nat) (shown : Text)
  /-- A number is too large. -/
  | tooLarge (name : Text) (maximum : Nat) (shown : Text)
  /-- A file that should hold the configuration does not exist. -/
  | configMissing (path : Text)
  /-- A file that should be read does not exist. -/
  | fileMissing (path : Text)
  /-- A configuration has to be a mapping. -/
  | notMapping (path : Text)
  /-- A file does not hold data; `reason` says where it goes wrong. -/
  | badData (origin reason : Text)
  /-- The delimiters of a command line are no pair. -/
  | delimiterArgument (given : Text)
deriving DecidableEq, Repr

/-- The greatest nesting depth that can be asked for.  It is what a stack of a thousand calls has
room for if every level takes twelve of them.  Whether a template takes more is not looked at
(`Stack.standard`). -/
def maxDepthLimit : Nat := 83

/-- The words for a faulty configuration. -/
def ConfigError.message : ConfigError → Text
  | .unknownSettings names => ("Unknown configuration keys: " : Text) ++ Text.join [',', ' '] names
  | .settingNotText typeName =>
    ("sequence item 0: expected str instance, " : Text) ++ typeName ++ " found"
  | .settingsUnordered left right =>
    ("'<' not supported between instances of '" : Text) ++ left ++ "' and '" ++ right ++ ['\'']
  | .delimiterShape shown => ("'delimiters' must be a pair of strings, got " : Text) ++ shown
  | .badDelimiters opening closing =>
    (SyntaxFault.badDelimiters (Text.quoted opening) (Text.quoted closing)).message
  | .unknownEscape name => ("'escape' must be one of html, none, got '" : Text) ++ name ++ "'"
  | .notFlag name shown => ['\''] ++ name ++ "' must be true or false, got " ++ shown
  | .notInteger name minimum shown =>
    ['\''] ++ name ++ "' must be an integer >= " ++ Text.ofNat minimum ++ ", got " ++ shown
  | .tooLarge name maximum shown =>
    ['\''] ++ name ++ "' must not exceed " ++ Text.ofNat maximum ++
      " with the interpreter recursion limit of 1000, got " ++ shown
  | .configMissing path => ("Config file not found: " : Text) ++ path
  | .fileMissing path => ("File not found: " : Text) ++ path
  | .notMapping path => ("YAML must be a mapping: " : Text) ++ path
  | .badData origin reason => ("Invalid YAML in " : Text) ++ origin ++ ": " ++ reason
  | .delimiterArgument given =>
    ("--delimiters expects two space-separated strings, got '" : Text) ++ given ++ "'"

/-- Whether the words for a fault are about the configuration.  Names of settings that are no texts
are not reported so: putting them in order, or their words together, already fails. -/
def ConfigError.isReport : ConfigError → Bool
  | .settingNotText _ | .settingsUnordered _ _ => false
  | _ => true

/-- How an engine works. -/
structure EngineConfig where
  /-- The opening and the closing delimiter, not necessarily valid ones. -/
  delimiters : Text × Text := (Delimiters.braces.opening, Delimiters.braces.closing)
  /-- Whether helpers are given the source of their parameters. -/
  stringParams : Bool := false
  /-- Whether a path that leads nowhere is an error. -/
  strict : Bool := false
  /-- The number of sections and partials that may be nested. -/
  maxDepth : Nat := 64
  /-- The name of the way of escaping output, not necessarily of one that exists. -/
  escape : Text := EscapeMode.html.name
  /-- The directory that partials are loaded from. -/
  partialsDirectory : Option FilePath := none
  /-- What is added to the name of a partial to make the name of its file. -/
  partialSuffix : Text := ".hbs"
  /-- The number of compiled templates that are kept. -/
  cacheSize : Nat := 256
  /-- At least one section or partial may be entered. -/
  one_le_maxDepth : 1 ≤ maxDepth := by decide
  /-- The nesting depth is limited. -/
  maxDepth_le : maxDepth ≤ maxDepthLimit := by decide

namespace EngineConfig

/-- The configuration without any setting. -/
def standard : EngineConfig := {}

instance : Inhabited EngineConfig := ⟨standard⟩

/-- The integer that a setting gives, if it is at least `minimum`. -/
def readInteger (name : Text) (minimum : Nat) (v : Value) :
    Except ConfigError { n : Nat // minimum ≤ n } :=
  match v with
  | .int i =>
    if h : (minimum : Int) ≤ i then .ok ⟨i.toNat, by omega⟩
    else .error (.notInteger name minimum v.literal)
  | v => .error (.notInteger name minimum v.literal)

/-- The configuration with a nesting depth and a cache size that are given as values. -/
def withNumbers (c : EngineConfig) (maxDepth cacheSize : Value) :
    Except ConfigError EngineConfig := do
  let depth ← readInteger "max_depth" 1 maxDepth
  if h : depth ≤ maxDepthLimit then
    let size ← readInteger "cache_size" 0 cacheSize
    .ok { c with maxDepth := depth, cacheSize := size
                 one_le_maxDepth := depth.2, maxDepth_le := h }
  else .error (.tooLarge "max_depth" maxDepthLimit maxDepth.literal)

/-- The names of the settings. -/
def settings : List Text :=
  ["delimiters".toList, "string_params".toList, "strict_mode".toList, "max_depth".toList,
    "escape".toList, "partials_dir".toList, "partial_suffix".toList, "cache_size".toList]

/-- Whether two names of settings have an order: texts do, numbers do, and so do values of one
type. -/
def areOrdered (a b : Value) : Bool :=
  (a.asText?.isSome && b.asText?.isSome) || (a.asNumber?.isSome && b.asNumber?.isSome) ||
    a.typeName = b.typeName

/-- The one of two names of settings that comes first, as far as they are numbers. -/
def firstName (a b : Value) : Value :=
  match a.asNumber?, b.asNumber? with
  | some x, some y => if y.isBelow x then b else a
  | _, _ => a

/-- What is wrong with the names of the settings.  Those that do not exist are put in order, those
that are no texts in front, and they have to be texts to be reported by name. -/
def unknownSettings? (entries : List (Value × Value)) : Option ConfigError :=
  let unknown := entries.map (·.1) |>.filter fun key => !key.asText?.any settings.contains
  let (texts, others) := unknown.partition fun key => key.asText?.isSome
  match others ++ texts with
  | [] => none
  | key :: keys =>
    match keys.find? fun other => !areOrdered key other with
    | some other => some (.settingsUnordered other.typeName key.typeName)
    | none =>
      if key.asText?.isSome then
        some (.unknownSettings (Text.sortDistinct (unknown.filterMap Value.asText?)))
      else some (.settingNotText (keys.foldl firstName key).typeName)

/-- The pair of delimiters that a setting gives: two words of a text, or the texts of two values. -/
def readDelimiters (v : Value) : Except ConfigError (Text × Text) :=
  let v :=
    match v.asText? with
    | some t => Value.tuple ((Text.words t).map Value.text)
    | none => v
  match v.items? with
  | some [opening, closing] => .ok (opening.plainText, closing.plainText)
  | _ => .error (.delimiterShape v.literal)

/-- The flag that a setting gives. -/
def readFlag (name : Text) (v : Value) : Except ConfigError Bool :=
  match v with
  | .bool b => .ok b
  | v => .error (.notFlag name v.literal)

/-- The directory that a setting gives, as seen from the directory of the configuration. -/
def readDirectory (base : Option FilePath) (v : Value) : Option FilePath :=
  match v with
  | .null => none
  | v =>
    let p := FilePath.parse v.plainText
    some ((base.map fun b => b.join p).getD p)

/-- Reads a configuration from the entries of a mapping. -/
def ofEntries (entries : List (Value × Value)) (base : Option FilePath) :
    Except ConfigError EngineConfig := do
  let setting (name : Text) : Option Value := Value.valueAt? entries name
  if let some e := unknownSettings? entries then .error e
  let delimiters ←
    match setting "delimiters" with
    | some v => readDelimiters v
    | none => .ok standard.delimiters
  let escape ←
    match setting "escape" with
    | some v =>
      if (EscapeMode.ofName? v.plainText).isSome then .ok v.plainText
      else .error (.unknownEscape v.plainText)
    | none => .ok standard.escape
  let stringParams ← readFlag "string_params" ((setting "string_params").getD (.bool false))
  let strict ← readFlag "strict_mode" ((setting "strict_mode").getD (.bool false))
  let config ← EngineConfig.withNumbers
    { standard with
      delimiters, escape, stringParams, strict
      partialsDirectory := (setting "partials_dir").bind (readDirectory base)
      partialSuffix :=
        ((setting "partial_suffix").map Value.plainText).getD standard.partialSuffix }
    ((setting "max_depth").getD (.int standard.maxDepth))
    ((setting "cache_size").getD (.int standard.cacheSize))
  if (Delimiters.ofPair? config.delimiters.1 config.delimiters.2).isNone then
    .error (.badDelimiters config.delimiters.1 config.delimiters.2)
  .ok config

/-- The settings that are to take the place of those of a configuration. -/
structure Overrides where
  /-- The delimiters. -/
  delimiters : Option (Text × Text) := none
  /-- Whether helpers are given the source of their parameters. -/
  stringParams : Option Bool := none
  /-- Whether a path that leads nowhere is an error. -/
  strict : Option Bool := none
  /-- The nesting depth. -/
  maxDepth : Option Value := none
  /-- The name of the way of escaping output. -/
  escape : Option Text := none
  /-- The directory of partials. -/
  partialsDirectory : Option FilePath := none
  /-- What is added to the name of a partial. -/
  partialSuffix : Option Text := none
  /-- The size of the cache. -/
  cacheSize : Option Value := none

/-- The configuration with some settings replaced. -/
def override (c : EngineConfig) (o : Overrides) : Except ConfigError EngineConfig :=
  EngineConfig.withNumbers
    { c with
      delimiters := o.delimiters.getD c.delimiters
      stringParams := o.stringParams.getD c.stringParams
      strict := o.strict.getD c.strict
      escape := o.escape.getD c.escape
      partialsDirectory := o.partialsDirectory <|> c.partialsDirectory
      partialSuffix := o.partialSuffix.getD c.partialSuffix }
    (o.maxDepth.getD (.int c.maxDepth)) (o.cacheSize.getD (.int c.cacheSize))

/-- The escaper that a configuration names; one that does not exist changes nothing. -/
def escaper (c : EngineConfig) : Escaper :=
  ((EscapeMode.ofName? c.escape).map EscapeMode.escaper).getD Escaper.plain

/-- The options of templates that are compiled without options of their own. -/
def compileOptions (c : EngineConfig) : Except TemplateError CompileOptions :=
  match Delimiters.ofPair? c.delimiters.1 c.delimiters.2 with
  | some delimiters => .ok { delimiters, stringParams := c.stringParams, strict := c.strict }
  | none =>
    .error (.malformed
      (.badDelimiters (Text.quoted c.delimiters.1) (Text.quoted c.delimiters.2)) .none)

end EngineConfig

end Stencil
