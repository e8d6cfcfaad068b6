import Stencil.Error
import Stencil.Template.Key

/-!
# The log

What happens on the way from a source to its output is recorded as events.  An event knows how
serious it is, which part of the library it comes from, and its words; whoever runs the library
decides what to show.
-/

set_option autoImplicit false

namespace Stencil

/-- How serious an event is. -/
inductive LogLevel where
  /-- Of interest only when looking for a mistake. -/
  | debug
  /-- Of interest. -/
  | info
  /-- Possibly a mistake. -/
  | warning
  /-- A mistake. -/
  | error
deriving DecidableEq, Repr

/-- The part of the library that an event comes from. -/
inductive LogSource where
  /-- Scanning. -/
  | scanner
  /-- Building the tree. -/
  | tree
  /-- Compiling. -/
  | compiler
  /-- The engine and its cache. -/
  | engine
  /-- The registry of partials. -/
  | partials
  /-- Loading from files. -/
  | loader
  /-- Rendering. -/
  | renderer
  /-- The registry of helpers. -/
  | helpers
  /-- A template, through the `log` helper. -/
  | template
deriving DecidableEq, Repr

/-- Something that is worth a record. -/
inductive Event where
  /-- A tag has set the delimiters. -/
  | delimitersChanged (opening closing : Text) (position : Position)
  /-- A source has been scanned. -/
  | scanned (length tokens : Nat)
  /-- A tree has been built. -/
  | parsed (nodes : Nat)
  /-- A template has been compiled. -/
  | compiled (key : CacheKey) (helpers partials : List Text)
  /-- A template was compiled before. -/
  | cacheHit (key : CacheKey)
  /-- A template has left the cache. -/
  | evicted (name : Text)
  /-- A partial has been registered. -/
  | partialRegistered (name : Text)
  /-- A partial is about to be compiled. -/
  | partialLoaded (name : Text)
  /-- A file is about to be read. -/
  | loading (name path : Text)
  /-- A name leads out of the directory of the loader. -/
  | outside (name directory : Text)
  /-- A helper takes the place of a built-in one. -/
  | builtinOverridden (name : Text)
  /-- A helper takes the place of another. -/
  | helperReplaced (name : Text)
  /-- A helper is missing and another takes its calls. -/
  | helperNotFound (name fallback : Text)
  /-- A template logs a message. -/
  | message (level : LogLevel) (text : Text)
deriving DecidableEq, Repr

namespace Event

/-- How serious an event is. -/
def level : Event → LogLevel
  | .outside .. | .builtinOverridden .. => .warning
  | .message level _ => level
  | _ => .debug

/-- The part of the library that an event comes from. -/
def source : Event → LogSource
  | .delimitersChanged .. | .scanned .. => .scanner
  | .parsed .. => .tree
  | .compiled .. => .compiler
  | .cacheHit .. | .evicted .. => .engine
  | .partialRegistered .. | .partialLoaded .. => .partials
  | .loading .. | .outside .. => .loader
  | .builtinOverridden .. | .helperReplaced .. => .helpers
  | .helperNotFound .. => .renderer
  | .message .. => .template

/-- A list of names as quoted literals. -/
def quotedNames (names : List Text) : Text :=
  ['['] ++ Text.join [',', ' '] (names.map Text.quoted) ++ [']']

/-- The words for an event. -/
def text : Event → Text
  | .delimitersChanged opening closing position =>
    ("Delimiters changed to " : Text) ++ Text.quoted opening ++ " " ++ Text.quoted closing ++
      position.suffix
  | .scanned length tokens =>
    ("Tokenized template of length " : Text) ++ Text.ofNat length ++ " into " ++
      Text.ofNat tokens ++ " tokens"
  | .parsed nodes => ("Parsed AST with " : Text) ++ Text.ofNat nodes ++ " top-level nodes"
  | .compiled key helpers partials =>
    ("Compiled template '" : Text) ++ key.name ++ "': helpers=" ++ quotedNames helpers ++
      ", partials=" ++ quotedNames partials
  | .cacheHit key => ("Template cache hit for '" : Text) ++ key.name ++ "'"
  | .evicted name => ("Evicted template '" : Text) ++ name ++ "' from cache"
  | .partialRegistered name => ("Registered partial '" : Text) ++ name ++ "'"
  | .partialLoaded name => ("Compiling partial '" : Text) ++ name ++ "' from loader"
  | .loading name path => ("Loading template '" : Text) ++ name ++ "' from " ++ path
  | .outside name directory =>
    ("Template name '" : Text) ++ name ++ "' points outside " ++ directory
  | .builtinOverridden name => ("Helper '" : Text) ++ name ++ "' overrides the built-in helper"
  | .helperReplaced name => ("Helper '" : Text) ++ name ++ "' re-registered"
  | .helperNotFound name fallback =>
    ("Helper '" : Text) ++ name ++ "' not found, dispatching to " ++ fallback
  | .message _ text => text

end Event

end Stencil
