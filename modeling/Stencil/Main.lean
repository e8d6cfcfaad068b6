import Stencil.CommandLine.Run
import Stencil.Yaml.Read

/-!
# The program

The command line is run against the files that have been read so far.  When it ends because one is
missing, that file is read, if it exists, and the command line is run again.
-/

set_option autoImplicit false

namespace Stencil.CommandLine

/-- The text of a file, if it can be read. -/
def readFile? (p : FilePath) : IO (Option Text) := do
  try
    let t ← IO.FS.readFile (String.ofList p.toText)
    return some t.toList
  catch _ => return none

/-- Runs a command line, reading files as they turn out to be missing. -/
partial def runReading (r : Reading) (input : Text) (tree : FileTree) : IO Outcome := do
  let outcome := r.run Yaml.reader tree input
  match outcome.missing with
  | none => return outcome
  | some p =>
    if (tree.read? p).isSome then
      return outcome
    else
      match ← readFile? p with
      | none => return outcome
      | some t => runReading r input (tree.add p t)

/-- Runs the program for the words of a command line. -/
def runProgram (words : List String) : IO UInt32 := do
  let reading := Reading.ofWords (words.map String.toList)
  let input ← if reading.readsInput then (← IO.getStdin).readToEnd else pure ""
  let directory ← IO.currentDir
  let outcome ← runReading reading input.toList { directory := .parse directory.toString.toList }
  IO.print (String.ofList outcome.output)
  IO.eprint (String.ofList outcome.diagnostics)
  if let some mishap := outcome.escaped then IO.eprintln (String.ofList mishap.message)
  return outcome.code.toUInt32

end Stencil.CommandLine

/-- The entry point. -/
def main (args : List String) : IO UInt32 :=
  Stencil.CommandLine.runProgram args
