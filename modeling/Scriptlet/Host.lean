import Scriptlet.Text.Repetition

/-! The world around a program: lines to read, scripts to load, and a record of what was done. -/

namespace Scriptlet

/-- Something that a program did to the world around it. -/
inductive Event where
  | wrote (line : String)
  | cleared
  | loaded (name : String)
deriving DecidableEq, Repr

/-- What goes wrong each time, and the words for it. -/
structure Breakdown where
  write : Option String
  read : Option String
  clear : Option String
deriving DecidableEq, Repr

/-- A world in which nothing goes wrong. -/
def Breakdown.none : Breakdown := { write := .none, read := .none, clear := .none }

/--
The lines still to be read, what loading a name yields, how much room there is, and all that was
done so far.
-/
structure Host where
  input : List (Except String String)
  scripts : String → Except String String
  memory : Memory
  breakdown : Breakdown
  transcript : Array Event

namespace Host

/-- Writes a line. -/
def writeLine (line : String) (host : Host) : Except String Host :=
  match host.breakdown.write with
  | some reason => .error reason
  | none => .ok { host with transcript := host.transcript.push (.wrote line) }

/-- Clears what was written. -/
def clear (host : Host) : Except String Host :=
  match host.breakdown.clear with
  | some reason => .error reason
  | none => .ok { host with transcript := host.transcript.push .cleared }

/-- Reads a line; there is none at the end of the input, and a line that cannot be read is lost. -/
def readLine (host : Host) : Except String (Option String) × Host :=
  match host.breakdown.read with
  | some reason => (.error reason, host)
  | none =>
    match host.input with
    | [] => (.ok none, host)
    | line :: rest => (line.map some, { host with input := rest })

/-- Loads a script. -/
def load (name : String) (host : Host) : Except String String × Host :=
  (host.scripts name, { host with transcript := host.transcript.push (.loaded name) })

/-- Writing a line leaves the scripts as they are. -/
theorem writeLine_scripts {line : String} {host host' : Host}
    (done : host.writeLine line = .ok host') : host'.scripts = host.scripts := by
  unfold writeLine at done
  split at done
  · exact absurd done nofun
  · rw [← Except.ok.inj done]

/-- Clearing what was written leaves the scripts as they are. -/
theorem clear_scripts {host host' : Host} (done : host.clear = .ok host') :
    host'.scripts = host.scripts := by
  unfold clear at done
  split at done
  · exact absurd done nofun
  · rw [← Except.ok.inj done]

/-- Reading a line leaves the scripts as they are. -/
theorem readLine_scripts (host : Host) : host.readLine.2.scripts = host.scripts := by
  unfold readLine
  split
  · rfl
  · split <;> rfl

/-- A world of prepared lines and scripts, where every other script is missing. -/
def prepared (lines : List String) (scripts : List (String × String)) (memory : Memory)
    (breakdown : Breakdown) : Host :=
  { input := lines.map .ok
    scripts := fun name =>
      match scripts.lookup name with
      | some text => .ok text
      | none => .error s!"No script named '{name}'"
    memory
    breakdown
    transcript := #[] }

/-- The lines written. -/
def lines (host : Host) : List String :=
  host.transcript.toList.filterMap fun
    | .wrote line => some line
    | _ => none

/-- How often everything written was cleared. -/
def clears (host : Host) : Nat :=
  host.transcript.toList.countP (· == .cleared)

end Host

end Scriptlet
