import Scriptlet.Machine
import Scriptlet.Text.Bytes

/-! The command line: a script that runs once, or a session that runs line after line. -/

namespace Scriptlet

/-- What the command line asks for; without contents it asks for a session. -/
structure Invocation where
  contents : Option String
  fromFile : Bool
  pipeMode : Bool
deriving DecidableEq, Repr

namespace Invocation

/-- A letter after one dash sets an option. -/
def letter (invocation : Invocation) : Char → Option Invocation
  | 'f' => some { invocation with fromFile := true }
  | 'p' => some { invocation with pipeMode := true }
  | _ => none

/-- One argument that is no option; there is at most one of them. -/
def positional (invocation : Invocation) (argument : String) : Option Invocation :=
  match invocation.contents with
  | none => some { invocation with contents := some argument }
  | some _ => none

/-- Reads arguments into an invocation; after two dashes no argument is an option. -/
def read (invocation : Invocation) : List String → Option Invocation
  | [] => some invocation
  | "--" :: rest => rest.foldlM positional invocation
  | "--file" :: rest => read { invocation with fromFile := true } rest
  | "--pipe-mode" :: rest => read { invocation with pipeMode := true } rest
  | argument :: rest =>
    match argument.toList with
    | '-' :: '-' :: _ => none
    | '-' :: first :: more => do read (← (first :: more).foldlM letter invocation) rest
    | _ => do read (← invocation.positional argument) rest

/-- The invocation that some arguments make, if they make one. -/
def ofArguments? (arguments : List String) : Option Invocation :=
  read { contents := none, fromFile := false, pipeMode := false } arguments

end Invocation

/-- The standard input, the bytes of the files that are there, and how much room there is. -/
structure Surroundings where
  input : List UInt8
  files : String → Option (List UInt8)
  memory : Memory

namespace Surroundings

/-- The words for bytes that are no text. -/
def undecodable : String := "stream did not contain valid UTF-8"

/-- The words for a file that is not there. -/
def missing : String := "No such file or directory (os error 2)"

/-- The text of a file. -/
def script (surroundings : Surroundings) (name : String) : Except String String :=
  match surroundings.files name with
  | none => .error missing
  | some bytes =>
    match Text.decode? bytes with
    | some text => .ok text
    | none => .error undecodable

/-- The host of a console: its lines come from the standard input and its scripts from files. -/
def host (surroundings : Surroundings) : Host :=
  { input := (Text.byteLines surroundings.input).map fun bytes =>
      match Text.decode? bytes with
      | some line => .ok (Text.dropLineEnds line)
      | none => .error undecodable
    scripts := surroundings.script
    memory := surroundings.memory
    breakdown := .none
    transcript := #[] }

end Surroundings

/-- What a console shows of an event: lines are ended, and clearing moves to the top left. -/
def Event.shown : Event → String
  | .wrote line => line ++ "\n"
  | .cleared => "\x1b[2J\x1b[1;1H"
  | .loaded _ => ""

/-- What a console has shown so far, and the files that were asked for. -/
structure Screen where
  output : String
  errors : String
  asked : List String

namespace Screen

/-- A console that has shown nothing. -/
def blank : Screen := { output := "", errors := "", asked := [] }

/-- Shows a text. -/
def put (screen : Screen) (text : String) : Screen :=
  { screen with output := screen.output ++ text }

/-- Shows a line of errors. -/
def complain (screen : Screen) (text : String) : Screen :=
  { screen with errors := screen.errors ++ text ++ "\n" }

/-- Shows what happened, in order. -/
def replay (screen : Screen) (events : List Event) : Screen :=
  { screen with
    output := screen.output ++ String.join (events.map Event.shown)
    asked := screen.asked ++ events.filterMap fun
      | .loaded name => some name
      | _ => none }

end Screen

/-- What a console has shown when it ends, and the code that it ends with. -/
structure Departure where
  code : Nat
  screen : Screen

namespace Console

/-- The prompt before every line of a session. -/
def prompt : String := "basil > "

/-- The name of a script that stands on the command line. -/
def scriptName : String := "<script>"

/-- The name of the lines of a session. -/
def sessionName : String := "<stdin>"

/-- What a session answers to a line: the only value of the line, or the whole result. -/
def answer? (store : Store) (result : Value) : Option String :=
  match result with
  | .list list =>
    match (store.elements list).toList with
    | [value] => store.quoted? value
    | _ => store.quoted? result
  | _ => store.quoted? result

/-- The rest of a session, with at most so many prompts: each line runs in the same scope. -/
def converse (reach : Nat) (session : ScopeId) : Nat → Machine → Screen → Option Departure
  | 0, _, _ => none
  | prompts + 1, machine, screen =>
    let screen := screen.put prompt
    match machine.state.host.readLine with
    | (.ok none, _) => some { code := 0, screen }
    | (.error reason, _) => some { code := 1, screen := screen.complain reason }
    | (.ok (some line), host) =>
      let machine := { machine with state.host := { host with transcript := #[] } }
      if (Text.trim line.toList).isEmpty then
        converse reach session prompts machine screen
      else
        match machine.runIn reach { name := sessionName, text := line } session with
        | none => none
        | some (result, machine) =>
          let screen := screen.replay machine.state.host.transcript.toList
          match result with
          | .error error => converse reach session prompts machine (screen.complain error.report)
          | .ok value =>
            match answer? machine.state.store value with
            | none => none
            | some text => converse reach session prompts machine (screen.put (text ++ "\n"))

/-- A session on the lines of the standard input. -/
def session (reach : Nat) (surroundings : Surroundings) : Option Departure :=
  let machine := Machine.fresh surroundings.host
  let (session, machine) := machine.addScope machine.globals
  -- Every prompt takes a line, and the last one meets the end of the input.
  converse reach session (machine.state.host.input.length + 1) machine .blank

/-- The value that pipe mode shows: the last one of a list of values, or a value on its own. -/
def lastValue? (store : Store) : Value → Option Value
  | .list list => (store.elements list).back?
  | value => some value

/-- One run of a script. -/
def script (reach : Nat) (surroundings : Surroundings) (source : Source) (pipeMode : Bool) :
    Option Departure :=
  match (Machine.fresh surroundings.host).run reach source with
  | none => none
  | some (result, machine) =>
    let screen := Screen.blank.replay machine.state.host.transcript.toList
    match result with
    | .error error => some { code := 1, screen := screen.complain error.report }
    | .ok value =>
      if pipeMode then
        match lastValue? machine.state.store value with
        | none => some { code := 0, screen }
        | some last =>
          (machine.state.store.text? last).map fun text =>
            { code := 0, screen := screen.put (text ++ "\n") }
      else
        some { code := 0, screen }

/-- What an invocation does; nothing when it was cut off at its reach. -/
def run (reach : Nat) (invocation : Invocation) (surroundings : Surroundings) : Option Departure :=
  match invocation.contents with
  | none => session reach surroundings
  | some contents =>
    if invocation.fromFile then
      let screen := { Screen.blank with asked := [contents] }
      match surroundings.script contents with
      | .error _ =>
        let complaint :=
          s!"Failed to read the input file '{contents}'. Perhaps this file does not exist?"
        some { code := 1, screen := screen.complain complaint }
      | .ok text => script reach surroundings { name := contents, text } invocation.pipeMode
    else
      script reach surroundings { name := scriptName, text := contents } invocation.pipeMode

end Console

end Scriptlet
