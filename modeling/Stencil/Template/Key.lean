import Stencil.Delimiters

/-!
# What a template is compiled from

A template is compiled from a source, under a name and with some options.  The three together are
its key: an engine that has compiled a key once need not compile it again, and the log says of which
key it speaks.
-/

set_option autoImplicit false

namespace Stencil

/-- What can be chosen when a template is compiled. -/
structure CompileOptions where
  /-- The delimiters in force at the beginning. -/
  delimiters : Delimiters := .braces
  /-- Whether helpers are given the source of their parameters in place of the values. -/
  stringParams : Bool := false
  /-- Whether a path that leads nowhere is an error. -/
  strict : Bool := false
deriving DecidableEq, Repr

/-- What a compiled template is looked up by. -/
structure CacheKey where
  /-- The name that was given to it. -/
  name : Text
  /-- Its source. -/
  source : Text
  /-- The options it was compiled with. -/
  options : CompileOptions
deriving DecidableEq, Repr

end Stencil
