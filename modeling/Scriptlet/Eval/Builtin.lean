import Scriptlet.Action
import Scriptlet.Syntax.Grammar
import Scriptlet.Text.Blank

/-! What the built-in functions do with their arguments. -/

namespace Scriptlet

/-- What evaluates a construct in a frame. -/
abbrev Evaluator := Node → Frame → Action Exit Value

/-- What the built-in functions do with their arguments, given what evaluates the scripts. -/
abbrev Library := Evaluator → Frame → Span → Builtin → List Value → Action EvalError Value

namespace Eval

/-- The value of a program in a scope. -/
def runProgram (evaluate : Evaluator) (program : Node) (globals scope : ScopeId) :
    Action EvalError Value :=
  let frame := Frame.ofProgram globals scope
  Action.settle frame (evaluate program frame)

/-- A requirement on an argument that is not met. -/
def refuse (frame : Frame) (site : Span) (requirement : Requirement) : Action EvalError Value :=
  Action.fail frame (.argument requirement) site

/-- Writes the text of a value on a line. -/
def print (frame : Frame) (site : Span) (value : Value) : Action EvalError Value := do
  let text ← Action.textOf value
  Action.perform frame site (Host.writeLine text)
  return .null

/-- Reads lines up to the first integer, at most so many, and rebukes every line before it. -/
def readInteger (frame : Frame) (site : Span) : Nat → Action EvalError Int64
  | 0 => Action.cutOff
  | lines + 1 => do
    let line ← Action.readLine frame site
    match Numeric.readWord (Text.trim line.toList) with
    | some integer => return integer
    | none =>
      Action.perform frame site (Host.writeLine s!"'{line}' must be an integer. Try again!")
      readInteger frame site lines

/-- Reads an integer. Each line is read once, so the lines that are left bound how many are read. -/
def inputInteger (frame : Frame) (site : Span) : Action EvalError Value := do
  let lines ← Action.linesLeft
  return .number (.int (← readInteger frame site (lines + 1)))

/-- Clears what was written. -/
def clear (frame : Frame) (site : Span) : Action EvalError Value := do
  Action.perform frame site Host.clear
  return .null

/-- Puts a value at the end of a list. -/
def append (frame : Frame) (site : Span) : Value → Value → Action EvalError Value
  | .list list, value => do
    Action.change (Store.modifyList list (·.push value))
    return .null
  | _, _ => refuse frame site .firstList

/-- Takes the element at an index out of a list. -/
def pop (frame : Frame) (site : Span) : Value → Value → Action EvalError Value
  | .list list, .number (.int index) => do
    let elements ← Action.look (·.elements list)
    match Operation.place elements index .removal with
    | .error fault => Action.fail frame (.operation fault) site
    | .ok offset =>
      Action.change (Store.modifyList list (·.eraseIdxIfInBounds offset))
      return elements[offset]?.getD .null
  | .list _, _ => refuse frame site .secondNumber
  | _, _ => refuse frame site .firstList

/-- Puts the elements of a second list at the end of a first one. -/
def extend (frame : Frame) (site : Span) : Value → Value → Action EvalError Value
  | .list target, .list other => do
    let extra ← Action.look (·.elements other)
    Action.change (Store.modifyList target (· ++ extra))
    return .null
  | .list _, _ => refuse frame site .secondList
  | _, _ => refuse frame site .firstList

/-- Counts the elements of a list or the characters of a text. -/
def length (frame : Frame) (site : Span) : Value → Action EvalError Value
  | .list list => do
    let elements ← Action.look (·.elements list)
    return .number (.int (Numeric.ofCount elements.size))
  | .text text => return .number (.int (Numeric.ofCount text.length))
  | _ => refuse frame site .onlyList

/-- Runs a loaded script as a program of its own, in a new scope inside the caller's program. -/
def runScript (evaluate : Evaluator) (frame : Frame) (site : Span) (name text : String) :
    Action EvalError Value := do
  let scope ← Action.make (Store.enclose frame.program)
  match ({ name, text } : Source).program with
  | .error error => Action.fail frame (.scriptFailed name error.report) site
  | .ok program =>
    let _ ← (runProgram evaluate program frame.globals scope).mapExit fun error =>
      frame.error (.scriptFailed name error.report) site
    return .null

/-- Loads the script of a name and runs it. -/
def run (evaluate : Evaluator) (frame : Frame) (site : Span) : Value → Action EvalError Value
  | .text name => do
    match ← Action.load name with
    | .error reason => Action.fail frame (.scriptNotLoaded name reason) site
    | .ok text => runScript evaluate frame site name text
  | _ => refuse frame site .onlyText

/--
What a built-in function does with as many arguments as it has parameters. Arguments are looked at
from left to right, and a function that refuses one has changed nothing.
-/
def effect (evaluate : Evaluator) (frame : Frame) (site : Span) (function : Builtin)
    (arguments : List Value) : Action EvalError Value :=
  let first := arguments.getD 0 .null
  let second := arguments.getD 1 .null
  match function with
  | .print => print frame site first
  | .printRet => return .text (← Action.textOf first)
  | .input => return .text (← Action.readLine frame site)
  | .inputInt => inputInteger frame site
  | .clear => clear frame site
  | .isNumber => return .ofBool (first matches .number _)
  | .isText => return .ofBool (first matches .text _)
  | .isList => return .ofBool (first matches .list _)
  | .isFunction => return .ofBool (first matches .closure _ | .builtin _)
  | .append => append frame site first second
  | .pop => pop frame site first second
  | .extend => extend frame site first second
  | .length => length frame site first
  | .run => run evaluate frame site first

/--
The scope of a call of a built-in function: it is inside the global one, and binds the parameters to
the arguments themselves. No function is made in it, so that it is not kept after the call.
-/
def argumentScope (globals : ScopeId) (function : Builtin) (arguments : List Value) : Scope :=
  { parent := some globals, bindings := .ofList (function.parameters.zip arguments) }

/-- The value that the scope of a call has for a parameter. -/
def argument (frame : Frame) (site : Span) (scope : Scope) (parameter : String) :
    Action EvalError Value := do
  match ← Action.look (·.lookupFrom scope parameter) with
  | some value => return value
  | none => Action.fail frame (.undefined parameter) site

/-- A built-in function in the frame of its call: it acts on what its parameters are bound to. -/
def builtin (evaluate : Evaluator) (frame : Frame) (site : Span) (function : Builtin)
    (arguments : List Value) : Action EvalError Value := do
  let scope := argumentScope frame.globals function arguments
  effect evaluate frame site function (← function.parameters.mapM (argument frame site scope))

end Eval

end Scriptlet
