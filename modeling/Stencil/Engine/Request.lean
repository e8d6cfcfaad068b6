import Stencil.Engine.Basic

/-!
# Requests to an engine

A program that works with an engine asks it for one thing after another.  `Request` lists what it
can ask for and `Answer` what it gets; `Engine.serve` answers one request and `Engine.serveAll` a
sequence of them.  A request that fails leaves an engine that goes on answering.
-/

set_option autoImplicit false

namespace Stencil

/-- Something to ask an engine for. -/
inductive Request where
  /-- Register a helper. -/
  | registerHelper (name : Value) (helper : Helper) (allowReserved : Bool)
  /-- Register a compiled template as a partial. -/
  | registerPartial (name : Text) (h : Handle)
  /-- Register a source as a partial. -/
  | registerPartialSource (name source : Text)
  /-- Define a template for the loader. -/
  | define (name source : Text)
  /-- Compile a source. -/
  | compile (name source : Text) (options : Option CompileOptions)
  /-- Find the template of a name. -/
  | template (name : Text)
  /-- Render a compiled template. -/
  | render (h : Handle) (data : Value)
  /-- Render a source. -/
  | renderSource (source : Text) (data : Value)
  /-- Render a compiled template node by node. -/
  | renderNodes (h : Handle) (data : Value)

/-- What an engine answers. -/
inductive Answer where
  /-- It is done. -/
  | done
  /-- A template. -/
  | template (h : Handle)
  /-- The output of a template. -/
  | output (t : Text)
  /-- The outputs of the nodes of a template, and why it did not come to its end. -/
  | outputs (ts : List Text) (failure : Option Failure)
  /-- It cannot be done. -/
  | failed (failure : Failure)

namespace Answer

variable {α : Type}

/-- The answer for the result of an operation. -/
def ofResult (wrap : α → Answer) : Except Failure α × Engine → Answer × Engine
  | (.ok a, e) => (wrap a, e)
  | (.error failure, e) => (.failed failure, e)

end Answer

namespace Engine

/-- Answers a request. -/
def serve (e : Engine) : Request → Answer × Engine
  | .registerHelper name helper allowReserved =>
    Answer.ofResult (fun _ => .done) (e.registerHelper name helper allowReserved)
  | .registerPartial name h => Answer.ofResult .template (e.registerPartial name h)
  | .registerPartialSource name source =>
    Answer.ofResult .template (e.registerPartialSource name source)
  | .define name source => (.done, e.define name source)
  | .compile name source options => Answer.ofResult .template (e.compile name source options)
  | .template name => Answer.ofResult .template (e.template name)
  | .render h data => Answer.ofResult .output (e.render h data)
  | .renderSource source data => Answer.ofResult .output (e.renderSource source data)
  | .renderNodes h data =>
    let (texts, failure, e) := e.renderNodes h data
    (.outputs texts failure, e)

/-- Answers a sequence of requests. -/
def serveAll (e : Engine) : List Request → List Answer × Engine
  | [] => ([], e)
  | request :: requests =>
    let (answer, e) := e.serve request
    let (answers, e) := e.serveAll requests
    (answer :: answers, e)

end Engine

end Stencil
