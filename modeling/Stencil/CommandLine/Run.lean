import Stencil.CommandLine.Arguments
import Stencil.Engine.Basic

/-!
# Running commands

A command is run against a directory tree and the text of the standard input; `Command.run` answers
what it outputs (`Outcome`).  The steps follow one another in this order, and the first that fails
ends the command:

* the configuration is read and changed as the options say, and an engine is made with it;
* the template is read and compiled;
* `check` lists the names that the template mentions, and `render` reads the data and renders the
  template node by node, so that what comes before a failing node is output.

The diagnostics hold the log and, at the end, what has gone wrong.  A command only reports errors of
a configuration and of templates.  Any other one ends the program.

Data and configurations are written in YAML, which includes JSON.  The command line leaves it to a
reader that it is given to tell which value a text writes (`ValueReader`), and takes over what this
answers, whatever that is.

It renders without a bound on the calls in progress.
-/

set_option autoImplicit false

namespace Stencil.CommandLine

/-- Why a command comes to an early end. -/
inductive Mishap where
  /-- Something is wrong with a setting or a file. -/
  | config (e : ConfigError)
  /-- There is no engine for the configuration. -/
  | setup (fault : EngineFault)
  /-- Something is wrong with the template. -/
  | engine (failure : Failure)
deriving DecidableEq, Repr

/-- The words for a mishap. -/
def Mishap.message : Mishap → Text
  | .config e => e.message
  | .setup fault => fault.message
  | .engine failure => failure.message

/-- Whether a command reports a mishap: it does if that is an error of a configuration or of
templates. -/
def Mishap.isReport : Mishap → Bool
  | .config e => e.isReport
  | .engine (.template _) => true
  | .setup _ | .engine _ => false

/-- What a command outputs. -/
structure Outcome where
  /-- The exit code. -/
  code : Nat
  /-- What goes to the standard output. -/
  output : Text
  /-- What goes to the standard error. -/
  diagnostics : Text
  /-- What has ended the program because the command does not report it. -/
  escaped : Option Mishap := none
  /-- The file whose absence has ended the command. -/
  missing : Option FilePath := none
deriving DecidableEq, Repr

/-- Tells which value a text writes, or in words why it writes none. -/
abbrev ValueReader := Text → Except Text Value

/-! ## Reading files -/

/-- The word that stands for the standard input. -/
def standardInput : Text := ['-']

/-- The text of a file, or of the standard input. -/
def readText (tree : FileTree) (input : Text) (target : Text) : Except ConfigError Text :=
  if target = standardInput then .ok input
  else
    let p := FilePath.parse target
    match tree.read? p with
    | some t => .ok t
    | none => .error (.fileMissing p.toText)

/-- The value that a text writes. -/
def readValue (reader : ValueReader) (origin t : Text) : Except ConfigError Value :=
  (reader t).mapError (.badData origin)

/-- The entries of a mapping.  Any value that is empty stands for a mapping without entries. -/
def configEntries? : Value → Option (List (Value × Value))
  | .map entries => some entries
  | v => if v.isTruthy false then none else some []

/-- Reads a configuration from a file. -/
def readConfig (reader : ValueReader) (tree : FileTree) (p : FilePath) :
    Except ConfigError EngineConfig := do
  match tree.read? p with
  | none => .error (.configMissing p.toText)
  | some t =>
    let v ← readValue reader p.toText t
    match configEntries? v with
    | none => .error (.notMapping p.toText)
    | some entries => EngineConfig.ofEntries entries (some p.parent)

namespace Command

/-- The delimiters that the options give. -/
def delimiters? (c : Command) : Except ConfigError (Option (Text × Text)) :=
  match c.nonemptyValue? .delimiters with
  | none => .ok none
  | some t =>
    match Text.words t with
    | [opening, closing] => .ok (some (opening, closing))
    | _ => .error (.delimiterArgument t)

/-- The configuration of the engine.  Without any other directory, partials are looked for where
the template is. -/
def config (c : Command) (reader : ValueReader) (tree : FileTree) :
    Except ConfigError EngineConfig := do
  let base ←
    match c.nonemptyValue? .config with
    | some t => readConfig reader tree (.parse t)
    | none => .ok .standard
  let delimiters ← c.delimiters?
  let directory : Option FilePath :=
    match c.nonemptyValue? .partials with
    | some t => some (.parse t)
    | none =>
      if base.partialsDirectory.isNone ∧ c.template ≠ standardInput then
        some (FilePath.parse c.template).parent
      else none
  base.override
    { delimiters
      strict := if c.has .strict then some true else none
      stringParams := if c.has .stringParams then some true else none
      partialsDirectory := directory
      partialSuffix := c.value? .suffix }

/-- The name of the template in the log. -/
def templateName (c : Command) : Text :=
  if c.template = standardInput then "<stdin>" else (FilePath.parse c.template).stem

/-- What is left of the standard input when the template has been read. -/
def inputLeft (c : Command) (input : Text) : Text :=
  if c.template = standardInput then [] else input

/-- The data to render the template with.  Without any it is a mapping without entries. -/
def data (c : Command) (reader : ValueReader) (tree : FileTree) (input : Text) :
    Except ConfigError Value :=
  match c.value? .data with
  | none => .ok (.map [])
  | some target => do
    let t ← readText tree (c.inputLeft input) target
    match ← readValue reader (if target = standardInput then "<stdin>" else target) t with
    | .null => .ok (.map [])
    | v => .ok v

/-! ## Output -/

/-- The name of a level in the diagnostics. -/
def levelName : LogLevel → Text
  | .debug => "DEBUG"
  | .info => "INFO"
  | .warning => "WARNING"
  | .error => "ERROR"

/-- The line for an event. -/
def eventLine (e : Event) : Text :=
  ['['] ++ levelName e.level ++ [']', ' '] ++ e.text ++ ['\n']

/-- The lines for the events that are shown. -/
def logText (c : Command) (events : List Event) : Text :=
  (events.filter fun e => c.has .verbose || e.level != .debug).flatMap eventLine

/-- A list of names, or a dash if there are none. -/
def nameList (names : List Text) : Text :=
  if names.isEmpty then ['-'] else Text.join [',', ' '] names

/-- The lines for the names that a template mentions. -/
def mentions (t : Template) : Text :=
  ("helpers: " : Text) ++ nameList t.helperNames ++ ['\n'] ++
    ("partials: " : Text) ++ nameList t.partialNames ++ ['\n']

/-- The file whose absence is the reason of a mishap. -/
def missingFile (loader : Option Loader) : Mishap → Option FilePath
  | .config (.configMissing p) | .config (.fileMissing p) => some (.parse p)
  | .engine (.template (.partialNotFound name)) =>
    match loader with
    | some (.files l _) => l.resolve? name
    | _ => none
  | _ => none

/-- The lines for what an engine has logged. -/
def engineLog (c : Command) (e : Option Engine) : Text :=
  c.logText ((e.map fun e => e.takeLog.1).getD [])

/-- The outcome of a command that has come to an early end, after some output. -/
def failed (c : Command) (e : Option Engine) (output : Text) (mishap : Mishap) : Outcome :=
  if mishap.isReport then
    { code := 2, output
      diagnostics := c.engineLog e ++ Text.dropEndWhile isBlank mishap.message ++ ['\n']
      missing := missingFile (e.bind fun e => e.env.loader) mishap }
  else { code := 1, output, diagnostics := c.engineLog e, escaped := some mishap }

/-- The outcome of a command that has done what it should. -/
def done (c : Command) (e : Engine) (output : Text) : Outcome where
  code := 0
  output := output
  diagnostics := c.logText e.takeLog.1

/-- Runs a command with a template that has been compiled. -/
def runCompiled (c : Command) (reader : ValueReader) (tree : FileTree) (input : Text) (e : Engine)
    (h : Handle) : Outcome :=
  match c.purpose with
  | .check => c.done e (mentions h.template)
  | .render =>
    match c.data reader tree input with
    | .error error => c.failed (some e) [] (.config error)
    | .ok data =>
      match e.renderNodes h data with
      | (outputs, none, e) => c.done e outputs.flatten
      | (outputs, some failure, e) => c.failed (some e) outputs.flatten (.engine failure)

/-- Runs a command. -/
def run (c : Command) (reader : ValueReader) (tree : FileTree) (input : Text) : Outcome :=
  match c.config reader tree with
  | .error error => c.failed none [] (.config error)
  | .ok config =>
    match Engine.make config none none tree with
    | .error fault => c.failed none [] (.setup fault)
    | .ok e =>
      match readText tree input c.template with
      | .error error => c.failed (some e) [] (.config error)
      | .ok source =>
        match e.compile c.templateName source none with
        | (.error failure, e) => c.failed (some e) [] (.engine failure)
        | (.ok h, e) => c.runCompiled reader tree input e h

end Command

/-! ## Everything that can be asked for -/

/-- The name and version of the program. -/
def versionLine : Text := "hbs 0.1.0\n"

/-- How the program is used. -/
def usageLine : Text :=
  "usage: hbs [-h] [--version] (render | check) TEMPLATE [OPTION ...]\n"

/-- The options with their meanings. -/
def helpText : Text :=
  usageLine ++
    ("\n  --partials DIR         directory with partials\n" : Text) ++
    ("  --suffix SUFFIX        file suffix of partials\n" : Text) ++
    ("  --config FILE          engine configuration\n" : Text) ++
    ("  --strict               fail on undefined variables\n" : Text) ++
    ("  --string-params        pass helper parameters as their source text\n" : Text) ++
    ("  --delimiters PAIR      opening and closing delimiter\n" : Text) ++
    ("  --data FILE            root context, for render only; - is standard input\n" : Text) ++
    ("  -v, --verbose          show the whole log\n" : Text)

namespace Reading

/-- Does what a command line asks for. -/
def run (r : Reading) (reader : ValueReader) (tree : FileTree) (input : Text) : Outcome :=
  match r with
  | .version => { code := 0, output := versionLine, diagnostics := [] }
  | .help => { code := 0, output := helpText, diagnostics := [] }
  | .misuse => { code := 2, output := [], diagnostics := usageLine }
  | .command c => c.run reader tree input

/-- Whether the standard input is read at all. -/
def readsInput : Reading → Bool
  | .command c => c.template = standardInput || c.value? .data = some standardInput
  | _ => false

end Reading

end Stencil.CommandLine
