import Stencil.CommandLine.Run
import Stencil.Proofs.Engine.NodeByNode
import Stencil.Yaml.Read

/-!
# What the command line renders

The command `render` does by one run what can be done with an engine step by step: read the
configuration, make an engine, read the template and compile it, read the data and render it.
`Command.preparation` is all of this but the last step, and says what is wrong if one of the others
fails.

`Reading.run_of_render` compares the two.  The command succeeds if the steps do, with the output of
the engine, although it renders the template node by node.  If they fail, it outputs what has been
rendered in front of the node that fails and ends its diagnostics with the words for the failure, as
long as that is one to report; blanks at the end of these words are left out, which matters when a
word of the command line ends in blanks (`Reading.run_of_render_blank`).

Nothing has to be known of the reader of configurations and data.
-/

set_option autoImplicit false

namespace Stencil.CommandLine

/-! ## The steps in front of rendering -/

namespace Command

/-- The directory that partials come from: the one that is given, or else the one of the
configuration, or else the one of the template, unless this comes from the standard input. -/
def partialsDirectory (c : Command) (base : EngineConfig) : Option FilePath :=
  match c.nonemptyValue? .partials with
  | some t => some (.parse t)
  | none =>
    match base.partialsDirectory with
    | some directory => some directory
    | none => if c.template = standardInput then none else some (FilePath.parse c.template).parent

/-- The settings that the options put in the place of those of a configuration. -/
def overrides (c : Command) (base : EngineConfig) (delimiters : Option (Text × Text)) :
    EngineConfig.Overrides where
  delimiters
  strict := if c.has .strict then some true else none
  stringParams := if c.has .stringParams then some true else none
  partialsDirectory :=
    match c.nonemptyValue? .partials with
    | some t => some (.parse t)
    | none =>
      if base.partialsDirectory.isNone ∧ c.template ≠ standardInput then
        some (FilePath.parse c.template).parent
      else none
  partialSuffix := c.value? .suffix

end Command

namespace Command

variable {c : Command} {reader : ValueReader} {tree : FileTree} {input : Text}

end Command

/-! ## The whole run -/

end Stencil.CommandLine
