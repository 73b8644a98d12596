import Scriptlet.Eval

/-! The interpreter: global variables, and programs that run one after another beside a host. -/

namespace Scriptlet

/-- Why a program has no value: its text is none, or it stopped while it ran. -/
inductive ProgramError where
  | malformed (error : SyntaxError)
  | failed (error : EvalError)

namespace ProgramError

/-- The error on its own. -/
def message : ProgramError → String
  | .malformed error => error.message
  | .failed error => error.message

/-- The range that the error is about. -/
def span : ProgramError → Span
  | .malformed error => error.span
  | .failed error => error.span

/-- The full report of the error. -/
def report : ProgramError → String
  | .malformed error => error.report
  | .failed error => error.report

end ProgramError

/-- The state that programs leave behind for the next one, and where the global variables are. -/
structure Machine where
  state : State
  globals : ScopeId

/-- What comes of a program; nothing when it was cut off. -/
abbrev Machine.Ended := Option (Except ProgramError Value × Machine)

namespace Machine

/-- A machine whose programs add to a store and act on a host. -/
def start (store : Store) (host : Host) : Machine :=
  let (globals, store) := store.addGlobals
  { state := { store, host }, globals }

/-- A machine that has run nothing yet. -/
def fresh (host : Host) : Machine :=
  start .empty host

/-- A new scope inside another one, or on its own. -/
def addScope (parent : Option ScopeId) (machine : Machine) : ScopeId × Machine :=
  let ⟨⟨store, host⟩, globals⟩ := machine
  let (scope, store) := store.addScope parent
  (scope, ⟨⟨store, host⟩, globals⟩)

/-- Gives a variable of a scope a value. -/
def define (scope : ScopeId) (name : String) (value : Value) (machine : Machine) : Machine :=
  { machine with state.store := machine.state.store.define scope name value }

/-- The value of a variable that a scope sees. -/
def lookup (machine : Machine) (scope : ScopeId) (name : String) : Option Value :=
  machine.state.store.lookup scope name

/-- Defines a copy of a variable's value under another name, if there is such a variable. -/
def copyVariable (scope : ScopeId) (name : String) (target : ScopeId) (copyName : String)
    (machine : Machine) : Option Machine :=
  (machine.lookup scope name).map fun value =>
    let ⟨⟨store, host⟩, globals⟩ := machine
    let (copy, store) := store.copy value
    ⟨⟨store.define target copyName copy, host⟩, globals⟩

/--
Runs a program in a scope, so that the next one there finds its variables. Evaluations nest, and
loops go round, at most `reach` times.
-/
def runIn (reach : Nat) (source : Source) (scope : ScopeId) (machine : Machine) : Ended :=
  match source.program with
  | .error error => some (.error (.malformed error), machine)
  | .ok program =>
    let ⟨state, globals⟩ := machine
    match Eval.runProgram (evaluate reach) program globals scope state with
    | .value value state => some (.ok value, ⟨state, globals⟩)
    | .exit error state => some (.error (.failed error), ⟨state, globals⟩)
    | .unfinished => none

/-- Runs a program in a new scope inside the global one. -/
def run (reach : Nat) (source : Source) (machine : Machine) : Ended :=
  let (scope, machine) := machine.addScope machine.globals
  machine.runIn reach source scope

/-- A reach that no program comes to the end of. -/
def farthest : Nat := 0x1000000000000000

end Machine

end Scriptlet
