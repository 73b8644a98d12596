import Scriptlet.EvalError
import Scriptlet.Host
import Scriptlet.Store.Text

/-! Steps of a running program: they read and change its state, and end with a value or early. -/

namespace Scriptlet

/-- The state of a running program. -/
structure State where
  store : Store
  host : Host

/-- What comes of a step, unless it was cut off before it ended: a value, or an early exit. -/
inductive Outcome (ε α : Type) where
  | value (result : α) (state : State)
  | exit (cause : ε) (state : State)
  | unfinished

/-- A step of a running program, with its ways to end early. -/
def Action (ε α : Type) := State → Outcome ε α

/-- The ways in which the evaluation of a construct ends early. -/
inductive Exit where
  | failed (error : EvalError)
  | returned (value : Value)
  | broke (site : Span)
  | continued (site : Span)

/--
Where a construct is evaluated: the global scope, its own scope, the scope of its program, and the
calls around it.
-/
structure Frame where
  globals : ScopeId
  scope : ScopeId
  program : ScopeId
  chain : CallChain

namespace Frame

/-- The frame of a program in a scope. -/
def ofProgram (globals scope : ScopeId) : Frame :=
  { globals, scope, program := scope, chain := .program }

/-- The frame of a call that is made in this frame. -/
def enter (frame : Frame) (name : String) (site : Span) : Frame :=
  { frame with chain := .call name site frame.chain }

/-- An error in this frame. -/
def error (frame : Frame) (cause : EvalError.Cause) (span : Span) : EvalError :=
  { cause, span, chain := frame.chain }

end Frame

namespace Action

variable {ε α β γ : Type}

/-- The step that only has a value. -/
protected def pure (result : α) : Action ε α := fun state => .value result state

/-- One step, and if it ends with a value another one. -/
protected def bind (first : Action ε α) (next : α → Action ε β) : Action ε β := fun state =>
  match first state with
  | .value result state => next result state
  | .exit cause state => .exit cause state
  | .unfinished => .unfinished

instance : Monad (Action ε) where
  pure := Action.pure
  bind := Action.bind

/-- The step that only has a value leaves the state as it is. -/
@[simp] theorem pure_apply (result : α) (state : State) :
    (pure result : Action ε α) state = .value result state := rfl

/-- Two steps in a row: the second one starts where the first one ended with a value. -/
theorem bind_apply (first : Action ε α) (next : α → Action ε β) (state : State) :
    (first >>= next) state =
      match first state with
      | .value result state => next result state
      | .exit cause state => .exit cause state
      | .unfinished => .unfinished := rfl

/-- A step that only passes on the value of another one is that step. -/
theorem id_map' (step : Action ε α) : id <$> step = step := by
  -- No way to end is touched.
  funext state
  change Action.bind step (fun result => Action.pure (id result)) state = step state
  unfold Action.bind
  cases step state <;> rfl

/-- Of three steps in a row, the first early exit is the exit of both groupings. -/
theorem bind_assoc' (step : Action ε α) (second : α → Action ε β) (third : β → Action ε γ) :
    step >>= second >>= third = step >>= fun result => second result >>= third := by
  -- Without an early exit both groupings take the same steps.
  funext state
  simp only [bind_apply]
  cases step state <;> rfl

instance : LawfulMonad (Action ε) :=
  LawfulMonad.mk' (Action ε) id_map' (fun _ _ => rfl) bind_assoc'

/-- The same step, whose early exits are told in other terms. -/
def mapExit {ε ε' : Type} (told : ε → ε') (step : Action ε α) : Action ε' α := fun state =>
  match step state with
  | .value result state => .value result state
  | .exit cause state => .exit (told cause) state
  | .unfinished => .unfinished

/-- A step that can only fail is a step of an evaluation. -/
instance : MonadLift (Action EvalError) (Action Exit) where
  monadLift := mapExit .failed

/-- The step that is cut off. -/
def cutOff : Action ε α := fun _ => .unfinished

/-- The step that ends early. -/
def leave (cause : ε) : Action ε α := fun state => .exit cause state

/-- The step that fails. -/
def fail (frame : Frame) (cause : EvalError.Cause) (span : Span) : Action EvalError α :=
  leave (frame.error cause span)

/-- A step that only looks at the store. -/
def look (view : Store → α) : Action ε α := fun state => .value (view state.store) state

/-- The step that asks how much room there is. -/
def memory : Action ε Memory := fun state => .value state.host.memory state

/-- A step that only changes the store. -/
def change (update : Store → Store) : Action ε Unit := fun ⟨store, host⟩ =>
  .value () ⟨update store, host⟩

/-- A step that adds to the store. -/
def make (update : Store → α × Store) : Action ε α := fun ⟨store, host⟩ =>
  let (result, store) := update store
  .value result ⟨store, host⟩

@[simp] theorem cutOff_apply (state : State) : (cutOff : Action ε α) state = .unfinished := rfl

@[simp] theorem leave_apply (cause : ε) (state : State) :
    (leave cause : Action ε α) state = .exit cause state := rfl

@[simp] theorem fail_apply (frame : Frame) (cause : EvalError.Cause) (span : Span) (state : State) :
    (fail frame cause span : Action EvalError α) state = .exit (frame.error cause span) state := rfl

@[simp] theorem look_apply (view : Store → α) (state : State) :
    (look view : Action ε α) state = .value (view state.store) state := rfl

@[simp] theorem memory_apply (state : State) :
    (memory : Action ε Memory) state = .value state.host.memory state := rfl

@[simp] theorem change_apply (update : Store → Store) (state : State) :
    (change update : Action ε Unit) state = .value () { state with store := update state.store } :=
  rfl

@[simp] theorem make_apply (update : Store → α × Store) (state : State) :
    (make update : Action ε α) state =
      .value (update state.store).1 { state with store := (update state.store).2 } := rfl

/-- A new list as a value. -/
def makeList (elements : Array Value) : Action ε Value := do
  return .list (← make (Store.addList elements))

/-- What an operation yields as a value. -/
def yield : Operation.Result → Action ε Value
  | .value value => pure value
  | .list elements => makeList elements

/-- The text of a value; without one the step never ends. -/
def textOf (value : Value) : Action ε String := do
  match ← look (·.text? value) with
  | some text => pure text
  | none => cutOff

/-- A step that acts on the world, and fails with the words of its breakdown. -/
def perform (frame : Frame) (span : Span) (deed : Host → Except String Host) :
    Action EvalError Unit := fun ⟨store, host⟩ =>
  match deed host with
  | .ok host => .value () ⟨store, host⟩
  | .error reason => .exit (frame.error (.outputFailed reason) span) ⟨store, host⟩

/-- The step that reads a line, and fails when there is none. -/
def readLine (frame : Frame) (span : Span) : Action EvalError String := fun ⟨store, host⟩ =>
  match host.readLine with
  | (.ok (some line), host) => .value line ⟨store, host⟩
  | (.ok none, host) => .exit (frame.error .inputClosed span) ⟨store, host⟩
  | (.error reason, host) => .exit (frame.error (.inputFailed reason) span) ⟨store, host⟩

/-- How many lines can still be read. -/
def linesLeft : Action ε Nat := fun state => .value state.host.input.length state

/-- The step that loads a script. -/
def load (name : String) : Action ε (Except String String) := fun ⟨store, host⟩ =>
  let (script, host) := host.load name
  .value script ⟨store, host⟩

/--
The end of a function or of a program: what it returns is its value, and a signal that no loop has
taken is an error at the word that raised it.
-/
def settle (frame : Frame) (body : Action Exit Value) : Action EvalError Value := fun state =>
  match body state with
  | .value value state => .value value state
  | .exit (.failed error) state => .exit error state
  | .exit (.returned value) state => .value value state
  | .exit (.broke site) state => .exit (frame.error (.outsideLoop .breaking) site) state
  | .exit (.continued site) state => .exit (frame.error (.outsideLoop .continuing) site) state
  | .unfinished => .unfinished

/-- How a round of a loop ends: perhaps with a value, or as the last one. -/
inductive Round where
  | next (yielded : Option Value)
  | last

/-- A round of a loop; the loop's own signals end it and go no further. -/
def round (body : Action Exit Value) : Action Exit Round := fun state =>
  match body state with
  | .value value state => .value (.next (some value)) state
  | .exit (.continued _) state => .value (.next none) state
  | .exit (.broke _) state => .value .last state
  | .exit (.failed error) state => .exit (.failed error) state
  | .exit (.returned value) state => .exit (.returned value) state
  | .unfinished => .unfinished

end Action

end Scriptlet
