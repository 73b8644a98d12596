import Scriptlet.Console

/-! The command: it reads the standard input and the files asked for, and shows what comes of it. -/

namespace Scriptlet

/-- The bytes of a file, if it can be read. -/
def fileBytes (name : String) : IO (Option (List UInt8)) := do
  try
    return some (← IO.FS.readBinFile name).toList
  catch _ =>
    return none

/-- Runs an invocation, again with one more file each time it asks for a file not read before. -/
partial def depart (invocation : Invocation) (input : List UInt8)
    (known : List (String × Option (List UInt8))) : IO (Option Departure) := do
  let surroundings : Surroundings :=
    { input, files := fun name => (known.lookup name).join, memory := .gibibyte }
  match Console.run Machine.farthest invocation surroundings with
  | none => return none
  | some departure =>
    match departure.screen.asked.find? fun name => (known.lookup name).isNone with
    | none => return some departure
    | some name => depart invocation input ((name, ← fileBytes name) :: known)

end Scriptlet

open Scriptlet in
/-- The exit code of the command. -/
def main (arguments : List String) : IO UInt32 := do
  match Invocation.ofArguments? arguments with
  | none =>
    IO.eprintln "usage: [-f] [-p] [contents]"
    return 2
  | some invocation =>
    let input ← (← IO.getStdin).readBinToEnd
    match ← depart invocation input.toList [] with
    | none => return 1
    | some departure =>
      IO.print departure.screen.output
      IO.eprint departure.screen.errors
      return departure.code.toUInt32
