import Stencil.Main
import Stencil.Proofs.Node.Whitespace
import Stencil.Proofs.Node.Printing
import Stencil.Proofs.Token.Coverage
import Stencil.Proofs.Engine.CacheSize
import Stencil.Proofs.Engine.Strict
import Stencil.Proofs.Engine.Depth
import Stencil.Proofs.Engine.HelperNames
import Stencil.Proofs.Engine.Markup
import Stencil.Proofs.Engine.Loading
import Stencil.Proofs.Engine.Failure
import Stencil.Proofs.Engine.Recency
import Stencil.Proofs.Expr.RoundTrip
import Stencil.Proofs.Engine.PrivateAttributes
import Stencil.Proofs.SourceError
import Stencil.Proofs.Engine.NestingDepth
import Stencil.Proofs.Engine.Stack
import Stencil.Proofs.Engine.Exhaustion
import Stencil.Proofs.Rendering.Inverted
import Stencil.Proofs.Rendering.Iteration
import Stencil.Proofs.Rendering.Activity
import Stencil.Proofs.Rendering.Origin
import Stencil.Proofs.Engine.Transparency
import Stencil.Proofs.CommandLine.Rendering
import Stencil.Proofs.Survey
import Stencil.Proofs.Expr.Source
import Stencil.Proofs.CompileError
import Stencil.Proofs.Frame
import Stencil.Proofs.Token.Redefinition
import Stencil.Proofs.Node.LineBreak
import Stencil.Proofs.Loader
import Stencil.Proofs.Config
import Stencil.Proofs.Token.Scanner
import Stencil.Proofs.Engine.IndentedChain
import Stencil.Proofs.Rendering.Conditional
import Stencil.Proofs.Expr.Coverage
