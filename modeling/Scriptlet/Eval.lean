import Scriptlet.Eval.Builtin
import Scriptlet.Eval.Loop

/-! Evaluation: what every construct of the language does in a frame. -/

namespace Scriptlet

namespace Eval

/-- The values of constructs, from left to right. -/
def values (evaluate : Evaluator) (frame : Frame) : List Node → Action Exit (List Value)
  | [] => return []
  | node :: rest => do
    let value ← evaluate node frame
    return value :: (← values evaluate frame rest)

/-- A new list of the values of constructs. -/
def list (evaluate : Evaluator) (frame : Frame) (nodes : List Node) : Action Exit Value := do
  Action.makeList (← values evaluate frame nodes).toArray

/-- The value of a construct that has to be a number. -/
def number (evaluate : Evaluator) (frame : Frame) (node : Node) : Action Exit Number := do
  match ← evaluate node frame with
  | .number number => return number
  | _ => Action.fail frame (.operation .illegal) node.span

/-- The value of the nearest variable of a name. -/
def reference (frame : Frame) (span : Span) (name : String) : Action EvalError Value := do
  match ← Action.look (·.lookup frame.scope name) with
  | some value => return value
  | none => Action.fail frame (.undefined name) span

/-- Gives a variable of the current scope a copy of a value, and answers the copy. -/
def assign (evaluate : Evaluator) (frame : Frame) (name : String) (node : Node) :
    Action Exit Value := do
  let value ← Action.make (Store.copy (← evaluate node frame))
  Action.change (Store.define frame.scope name value)
  return value

/-- An operator on the values of two constructs, the left one first. -/
def binary (evaluate : Evaluator) (frame : Frame) (span : Span) (operator : BinaryOperator)
    (left right : Node) : Action Exit Value := do
  let leftValue ← evaluate left frame
  let rightValue ← evaluate right frame
  let memory ← Action.memory
  match ← Action.look (Operation.binary memory operator leftValue rightValue) with
  | .ok result => Action.yield result
  | .error fault =>
    -- An operation that is legal failed because of its right operand.
    let site := if fault = .illegal then span else right.span
    Action.fail frame (.operation fault) site

/-- An operator on the value of one construct. -/
def unary (evaluate : Evaluator) (frame : Frame) (span : Span) (operator : UnaryOperator)
    (operand : Node) : Action Exit Value := do
  let value ← evaluate operand frame
  match ← Action.look (Operation.unary operator value) with
  | .ok result => return result
  | .error fault => Action.fail frame (.operation fault) span

/-- The value of a body, or nothing for a block. -/
def body (evaluate : Evaluator) (frame : Frame) (node : Node) (form : BodyForm) :
    Action Exit Value := do
  return form.result (← evaluate node frame)

/-- The first body whose condition is true. -/
def choices (evaluate : Evaluator) (frame : Frame) : Choices → Action Exit Value
  | .none => return .null
  | .otherwise node form => body evaluate frame node form
  | .test condition node form rest => do
    let value ← evaluate condition frame
    if ← Action.look (·.truth value) then body evaluate frame node form
    else choices evaluate frame rest

/-- The step of a counted loop, which is one if it is left out. -/
def stepOf (evaluate : Evaluator) (frame : Frame) : Option Node → Action Exit Number
  | none => return .int 1
  | some node => number evaluate frame node

/-- A counted loop; its bounds and its step are evaluated once, before the first round. -/
def forLoop (evaluate : Evaluator) (frame : Frame) (rounds : Nat) (name : String)
    (first bound : Node) (step : Option Node) (node : Node) (form : BodyForm) :
    Action Exit Value := do
  let start ← number evaluate frame first
  let bound ← number evaluate frame bound
  let step ← stepOf evaluate frame step
  let bind (counter : Number) := Store.define frame.scope name (.number counter)
  countedRounds { bound, step } bind (Action.round (evaluate node frame)) form rounds start #[]

/-- A conditional loop. -/
def whileLoop (evaluate : Evaluator) (frame : Frame) (rounds : Nat) (condition node : Node)
    (form : BodyForm) : Action Exit Value :=
  conditionalRounds (evaluate condition frame) (Action.round (evaluate node frame)) form rounds #[]

/-- Makes a function of the current scope, and gives it to the variable of its name. -/
def function {ε : Type} (frame : Frame) (name : Option String) (parameters : List String)
    (body : Node) (form : BodyForm) : Action ε Value := do
  let closure ← Action.make
    (Store.addClosure { name, parameters, body, form, scope := frame.scope })
  match name with
  | none => return .closure closure
  | some name =>
    Action.change (Store.define frame.scope name (.closure closure))
    return .closure closure

/-- The error of a call with the wrong number of arguments. -/
def arityError (function : String) (expected given : Nat) : Option EvalError.Cause :=
  if expected < given then some (.surplusArguments (given - expected) function)
  else if given < expected then some (.missingArguments (expected - given) function)
  else none

/-- Binds parameters to copies of the arguments; of two with one name the later one counts. -/
def bindParameters (scope : ScopeId) : List (String × Value) → Store → Store
  | [], store => store
  | (name, value) :: rest, store =>
    let (copy, store) := store.copy value
    bindParameters scope rest (store.define scope name copy)

/-- A call of a function made by a program: its body runs in a new scope inside the function's. -/
def callClosure (evaluate : Evaluator) (frame : Frame) (site : Span) (closure : Closure)
    (arguments : List Value) : Action EvalError Value := do
  let scope ← Action.make (Store.enclose closure.scope)
  Action.change (bindParameters scope (closure.parameters.zip arguments))
  let inner := { frame.enter closure.label site with scope }
  Action.settle inner (body evaluate inner closure.body closure.form)

/-- A call of any value; only functions can be called, with one argument for each parameter. -/
def callValue (library : Library) (evaluate : Evaluator) (frame : Frame) (site : Span)
    (callee : Value) (arguments : List Value) : Action EvalError Value := do
  match callee with
  | .closure id =>
    match ← Action.look (·.closure? id) with
    | none => Action.fail frame (.operation .illegal) site
    | some closure =>
      match arityError closure.text closure.parameters.length arguments.length with
      | some cause => Action.fail frame cause site
      | none => callClosure evaluate frame site closure arguments
  | .builtin function =>
    match arityError function.text function.parameters.length arguments.length with
    | some cause => Action.fail frame cause site
    | none => library evaluate (frame.enter function.name site) site function arguments
  | _ => Action.fail frame (.operation .illegal) site

/-- A call: the function is evaluated first, then its arguments. -/
def call (library : Library) (evaluate : Evaluator) (frame : Frame) (site : Span)
    (callee : Node) (arguments : List Node) : Action Exit Value := do
  let function ← evaluate callee frame
  let values ← values evaluate frame arguments
  callValue library evaluate frame site function values

/-- The signal that ends a function with a value, or with none. -/
def returning (evaluate : Evaluator) (frame : Frame) : Option Node → Action Exit Value
  | none => Action.leave (.returned .null)
  | some node => do
    let value ← evaluate node frame
    Action.leave (.returned value)

/--
What a construct does, when `evaluate` does what the constructs in it do and no loop has more rounds
than given.
-/
def construct (library : Library) (evaluate : Evaluator) (rounds : Nat) (node : Node)
    (frame : Frame) : Action Exit Value :=
  match node with
  | .int _ value => return .number (.int value)
  | .float _ value => return .number (.float value)
  | .text _ value => return .text value
  | .list _ items => list evaluate frame items
  | .sequence _ statements => list evaluate frame statements
  | .reference span name => reference frame span name
  | .assign _ name value => assign evaluate frame name value
  | .binary span operator left right => binary evaluate frame span operator left right
  | .unary span operator operand => unary evaluate frame span operator operand
  | .conditional _ options => choices evaluate frame options
  | .forLoop _ name first bound step node form =>
    forLoop evaluate frame rounds name first bound step node form
  | .whileLoop _ condition node form => whileLoop evaluate frame rounds condition node form
  | .function _ name parameters body form => function frame name parameters body form
  | .call span callee arguments => call library evaluate frame span callee arguments
  | .returning _ value => returning evaluate frame value
  | .continuing span => Action.leave (.continued span)
  | .breaking span => Action.leave (.broke span)

end Eval

/--
Evaluates a construct with the built-in functions of a library. Evaluations nest at most so deep and
loops have at most so many rounds; what goes further is cut off.
-/
def evaluateWith (library : Library) : Nat → Evaluator
  | 0 => fun _ _ => Action.cutOff
  | depth + 1 => Eval.construct library (evaluateWith library depth) depth

/-- Evaluates a construct. -/
def evaluate (depth : Nat) : Evaluator :=
  evaluateWith Eval.builtin depth

end Scriptlet
