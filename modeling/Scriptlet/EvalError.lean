import Scriptlet.Operation
import Scriptlet.Syntax.Error

/-! What can go wrong while a program runs, and the reports of it. -/

namespace Scriptlet

/-- The calls that led to a place, from the innermost one outwards. -/
inductive CallChain where
  | program
  | call (name : String) (site : Span) (caller : CallChain)

namespace CallChain

/-- The name of the innermost call. -/
def name : CallChain → String
  | .program => "<program>"
  | .call name _ _ => name

/-- How many calls there are, with the program itself. -/
def depth : CallChain → Nat
  | .program => 1
  | .call _ _ caller => caller.depth + 1

/-- One line for each call with the place that it had reached, from the innermost one outwards. -/
def trace (reached : Span) : CallChain → List String
  | .program => [line .program]
  | .call name site caller => line (.call name site caller) :: caller.trace site
where
  /-- The line of the innermost call. -/
  line (chain : CallChain) : String :=
    s!"  File {reached.source.name}, line {reached.start.line + 1}, in {chain.name}\n"

end CallChain

/-- The signals that only a loop takes. -/
inductive LoopSignal where
  | breaking | continuing
deriving DecidableEq, Repr

/-- The word that raises a signal. -/
def LoopSignal.word : LoopSignal → String
  | .breaking => "BREAK"
  | .continuing => "CONTINUE"

/-- What a built-in function requires of an argument. -/
inductive Requirement where
  | firstList | secondNumber | secondList | onlyList | onlyText
deriving DecidableEq, Repr

/-- The words for a requirement. -/
def Requirement.text : Requirement → String
  | .firstList => "First argument must be list"
  | .secondNumber => "Second argument must be number"
  | .secondList => "Second argument must be list"
  | .onlyList => "Argument must be list"
  | .onlyText => "Argument must be string"

/-- The words for what was to be done with an element. -/
def Access.text : Access → String
  | .removal => "removed from"
  | .retrieval => "retrieved from"

/-- Why a program stopped. -/
inductive EvalError.Cause where
  | undefined (name : String)
  | operation (fault : Operation.Fault)
  | surplusArguments (count : Nat) (function : String)
  | missingArguments (count : Nat) (function : String)
  | argument (requirement : Requirement)
  | outsideLoop (signal : LoopSignal)
  | scriptNotLoaded (name reason : String)
  | scriptFailed (name report : String)
  | inputClosed
  | inputFailed (reason : String)
  | outputFailed (reason : String)
deriving DecidableEq, Repr

/-- The words for a failed operation. -/
def Operation.Fault.message : Operation.Fault → String
  | .illegal => "Illegal operation"
  | .tooLarge => "Result is too large"
  | .divisionByZero => "Division by zero"
  | .outOfBounds access =>
    s!"Element at this index could not be {access.text} list because index is out of bounds"

/-- The words for why a program stopped. -/
def EvalError.Cause.message : EvalError.Cause → String
  | .undefined name => s!"'{name}' is not defined"
  | .operation fault => fault.message
  | .surplusArguments count function => s!"{count} too many args passed into {function}"
  | .missingArguments count function => s!"{count} too few args passed into {function}"
  | .argument requirement => requirement.text
  | .outsideLoop signal => s!"'{signal.word}' used outside of a loop"
  | .scriptNotLoaded name reason => s!"Failed to load script \"{name}\"\n{reason}"
  | .scriptFailed name report => s!"Failed to finish executing script \"{name}\"\n{report}"
  | .inputClosed => "Input stream closed"
  | .inputFailed reason => s!"Failed to read input\n{reason}"
  | .outputFailed reason => s!"Failed to write output\n{reason}"

/-- Why a program stopped, where, and in which calls. -/
structure EvalError where
  cause : EvalError.Cause
  span : Span
  chain : CallChain

namespace EvalError

/-- The error on its own. -/
def message (error : EvalError) : String :=
  s!"Runtime Error: {error.cause.message}"

/-- The calls that led to the error, the outermost one first. -/
def traceback (error : EvalError) : String :=
  "Traceback (most recent call last):\n" ++ String.join (error.chain.trace error.span).reverse

/-- The error with its calls, its place and the line it is about. -/
def report (error : EvalError) : String :=
  s!"{error.traceback}{error.message}\n{error.span.located}"

end EvalError

end Scriptlet
