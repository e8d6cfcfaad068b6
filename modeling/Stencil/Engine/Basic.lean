import Stencil.Rendering.Nesting

/-!
# Engines

An engine compiles and renders templates.  It consists of the environment that its templates are
rendered in and of the session that it has come to.  Registering a helper or defining a template
changes the environment; compiling and rendering only change the session.

Every operation answers the engine as it is afterwards, also when it fails.
-/

set_option autoImplicit false

namespace Stencil

/-- The frame of a rendering that is given some data; null stands for a mapping without entries. -/
def Frame.ofData : Value → Frame
  | .null => .root (.map [])
  | v => .root v

namespace Environment

/-- What the rendering of a template goes by. -/
def rendering (env : Environment) (t : Template) : Rendering :=
  ⟨env, t.options.strict, t.options.stringParams⟩

/-- The renderer outside every section and partial of a template. -/
def topRenderer (env : Environment) (t : Template) : Renderer :=
  (env.rendering t).renderer env.config.maxDepth []

/-- Renders a template. -/
def render (env : Environment) (t : Template) (data : Value) : SessionM Text :=
  (env.topRenderer t).nodes t.nodes (.ofData data)

/-- Renders a template node by node. -/
def renderNodes (env : Environment) (t : Template) (data : Value) :
    Session → List Text × EStateM.Result Failure Session Unit :=
  SessionM.outputs (fun node => (env.topRenderer t).nodes [node] (.ofData data)) t.nodes

end Environment

/-- An engine. -/
structure Engine where
  /-- What it works with. -/
  env : Environment
  /-- What it has come to. -/
  session : Session := {}

/-- Why there is no engine for a configuration. -/
inductive EngineFault where
  /-- The path of the directory that partials are loaded from has a null character. -/
  | nullCharacter
  /-- There is no way of escaping output of that name. -/
  | unknownEscape (name : Text)
deriving DecidableEq, Repr

/-- The words for a missing engine. -/
def EngineFault.message : EngineFault → Text
  | .nullCharacter => "embedded null byte"
  | .unknownEscape name => Text.quoted name

namespace Engine

variable {α : Type}

/-- A new engine.  Without a loader, partials are loaded from the directory that the configuration
names; without an escaper, the one that the configuration names is used. -/
def create (config : EngineConfig) (loader : Option Loader) (escape : Option Escaper)
    (tree : FileTree) : Engine where
  env :=
    { config
      loader := loader <|> config.partialsDirectory.map fun directory =>
        .files (.ofDirectory tree directory config.partialSuffix) tree
      escape := escape.getD config.escaper }

/-- A new engine, if there can be one: what it is not given has to be found by the configuration. -/
def make (config : EngineConfig) (loader : Option Loader) (escape : Option Escaper)
    (tree : FileTree) : Except EngineFault Engine :=
  if loader.isNone && config.partialsDirectory.any FilePath.hasNull then .error .nullCharacter
  else if escape.isNone && (EscapeMode.ofName? config.escape).isNone then
    .error (.unknownEscape config.escape)
  else .ok (create config loader escape tree)

/-- Does something with the session of an engine. -/
def perform (e : Engine) (act : SessionM α) : Except Failure α × Engine :=
  match act.run e.session with
  | .ok a session => (.ok a, { e with session })
  | .error failure session => (.error failure, { e with session })

/-- The engine, where the streams with smaller numbers than `next` are known to be made already. -/
def withStreams (e : Engine) (next : Nat) : Engine :=
  { e with session := { e.session with nextStream := next } }

/-- What has happened since the log was taken the last time. -/
def takeLog (e : Engine) : List Event × Engine :=
  (e.session.log.reverse, { e with session := { e.session with log := [] } })

/-- Registers a helper.  What has been compiled with the old helpers is forgotten. -/
def registerHelper (e : Engine) (name : Value) (helper : Helper) (allowReserved : Bool) :
    Except Failure Unit × Engine :=
  match e.env.helpers.register name helper allowReserved with
  | .error error => (.error (.usage error), e)
  | .ok (helpers, events) =>
    let e := { e with env := { e.env with helpers } }
    e.perform do
      SessionM.record events
      SessionM.modifyStore fun s => { s with cache := .empty }

/-- Registers a partial that is answered by a computation, under a name that is not empty. -/
def registerPartialFrom (e : Engine) (name : Text) (compiled : SessionM Handle) :
    Except Failure Handle × Engine :=
  if name.isEmpty then (.error (.usage .emptyPartialName), e)
  else
    e.perform do
      let h ← compiled
      SessionM.modifyStore fun s => { s with partials := Table.insert s.partials name h }
      SessionM.record [.partialRegistered name]
      return h

/-- Registers a compiled template as a partial. -/
def registerPartial (e : Engine) (name : Text) (h : Handle) : Except Failure Handle × Engine :=
  e.registerPartialFrom name (pure h)

/-- Compiles a source and registers it as a partial. -/
def registerPartialSource (e : Engine) (name source : Text) : Except Failure Handle × Engine :=
  e.registerPartialFrom name (e.env.compile name source)

/-- Defines a template for the loader to find. -/
def define (e : Engine) (name source : Text) : Engine :=
  { e with env := { e.env with loader := e.env.loader.map fun l => l.define name source } }

/-- Compiles a source, with the options of the configuration if none are given. -/
def compile (e : Engine) (name source : Text) (options : Option CompileOptions) :
    Except Failure Handle × Engine :=
  e.perform <|
    match options with
    | none => e.env.compile name source
    | some options => e.env.compileKey { name, source, options }

/-- The template that partial tags insert under a name. -/
def template (e : Engine) (name : Text) : Except Failure Handle × Engine :=
  e.perform (e.env.partialNamed name)

/-- The name of a template that is given by its source alone. -/
def inlineName : Text := "inline"

/-- Renders a compiled template. -/
def render (e : Engine) (h : Handle) (data : Value) : Except Failure Text × Engine :=
  e.perform (e.env.render h.template data)

/-- Compiles and renders a source. -/
def renderSource (e : Engine) (source : Text) (data : Value) : Except Failure Text × Engine :=
  e.perform do
    let h ← e.env.compile inlineName source
    e.env.render h.template data

/-- Renders a compiled template node by node, and answers the outputs of the nodes up to the first
that fails. -/
def renderNodes (e : Engine) (h : Handle) (data : Value) : List Text × Option Failure × Engine :=
  match e.env.renderNodes h.template data e.session with
  | (texts, .ok _ session) => (texts, none, { e with session })
  | (texts, .error failure session) => (texts, some failure, { e with session })

end Engine

end Stencil
