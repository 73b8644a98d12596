import Scriptlet.Eval
import Scriptlet.Proofs.Syntax.Nesting

/-!
Rules that a run keeps: what holds of its store, which functions there are, which bodies are executed
in which frames, and which errors may come of that.
-/

namespace Scriptlet

/-- Causes that arise at a construct; signals that no loop takes arise where a body ends. -/
def EvalError.Cause.ordinary : EvalError.Cause → Bool
  | .outsideLoop _ => false
  | _ => true

/--
Rules for the runs of programs with the same scripts to load. Frames execute the bodies of programs
and of functions, and both bodies and errors are seen from the program that the calls started from.
-/
structure Policy where
  scripts : String → Except String String
  holds : Store → Prop
  functions : Closure → Prop
  executes : (program body : Node) → Frame → Prop
  errors : (program : Node) → EvalError → Prop

namespace Policy

variable {ε ε' α β : Type}

/-- Rules that every step by itself keeps. -/
structure Lawful (policy : Policy) : Prop where
  define {store : Store} (scope : ScopeId) (name : String) {value : Value}
    (held : policy.holds store) (plain : ∀ list, value ≠ .list list) :
    policy.holds (store.define scope name value)
  defineCopy {store : Store} (scope : ScopeId) (name : String) (value : Value)
    (held : policy.holds store) :
    policy.holds ((store.copy value).2.define scope name (store.copy value).1)
  addList {store : Store} (elements : Array Value) (held : policy.holds store) :
    policy.holds (store.addList elements).2
  modifyList {store : Store} (list : ListId) (change : Array Value → Array Value)
    (held : policy.holds store) : policy.holds (store.modifyList list change)
  enclose {store : Store} (scope : ScopeId) (held : policy.holds store) :
    policy.holds (store.enclose scope).2
  addClosure {store : Store} {closure : Closure} (held : policy.holds store)
    (known : policy.functions closure) : policy.holds (store.addClosure closure).2
  closure? {store : Store} {place : ClosureId} {closure : Closure} (held : policy.holds store)
    (found : store.closure? place = some closure) : policy.functions closure
  function {program body inner : Node} {frame : Frame} {span : Span} {name : Option String}
    {parameters : List String} {form : BodyForm} (executed : policy.executes program body frame)
    (inside : .function span name parameters inner form ∈ body.own) :
    policy.functions { name, parameters, body := inner, form, scope := frame.scope }
  call {program body callee : Node} {arguments : List Node} {frame : Frame} {site : Span}
    {closure : Closure} (scope : ScopeId) (executed : policy.executes program body frame)
    (inside : .call site callee arguments ∈ body.own) (known : policy.functions closure) :
    policy.executes program closure.body { frame.enter closure.label site with scope }
  script {name text : String} {program : Node} (globals scope : ScopeId)
    (loaded : policy.scripts name = .ok text)
    (parsed : ({ name, text } : Source).program = .ok program) :
    policy.executes program program (.ofProgram globals scope)
  fails {program body node : Node} {frame : Frame} {cause : EvalError.Cause}
    (executed : policy.executes program body frame) (inside : node ∈ body.own)
    (ordinary : cause.ordinary) : policy.errors program (frame.error cause node.span)
  builtinFails {program body callee : Node} {arguments : List Node} {frame : Frame} {site : Span}
    {cause : EvalError.Cause} (function : Builtin) (executed : policy.executes program body frame)
    (inside : .call site callee arguments ∈ body.own) (ordinary : cause.ordinary) :
    policy.errors program ((frame.enter function.name site).error cause site)
  escapes {program body : Node} {frame : Frame} {signal : LoopSignal} {site : Span}
    (executed : policy.executes program body frame) (loose : site ∈ body.loose signal) :
    policy.errors program (frame.error (.outsideLoop signal) site)

/-- The states that the rules speak of. -/
structure States (policy : Policy) (state : State) : Prop where
  store : policy.holds state.store
  scripts : state.host.scripts = policy.scripts

/-- Outcomes that leave such states behind, unless they were cut off. -/
inductive Outcomes (policy : Policy) (exits : ε → Prop) (results : α → Prop) :
    Outcome ε α → Prop where
  | value {result : α} {state : State} (fine : results result) (states : policy.States state) :
    Outcomes policy exits results (.value result state)
  | exit {cause : ε} {state : State} (fine : exits cause) (states : policy.States state) :
    Outcomes policy exits results (.exit cause state)
  | unfinished : Outcomes policy exits results .unfinished

/-- A step that keeps to the rules, with what may come of it. -/
def Keeps (policy : Policy) (exits : ε → Prop) (results : α → Prop) (step : Action ε α) : Prop :=
  ∀ state, policy.States state → policy.Outcomes exits results (step state)

/-- The early exits of a construct: its errors keep to the rules, and its signals are in it. -/
inductive Exits (policy : Policy) (program node : Node) : Exit → Prop where
  | failed {error : EvalError} (fine : policy.errors program error) :
    Exits policy program node (.failed error)
  | returned (value : Value) : Exits policy program node (.returned value)
  | broke {site : Span} (loose : site ∈ node.loose .breaking) :
    Exits policy program node (.broke site)
  | continued {site : Span} (loose : site ∈ node.loose .continuing) :
    Exits policy program node (.continued site)

/-- A frame and a range that every ordinary error may be told of. -/
def Blames (policy : Policy) (program : Node) (frame : Frame) (span : Span) : Prop :=
  ∀ cause : EvalError.Cause, cause.ordinary → policy.errors program (frame.error cause span)

/-- A construct of a body is evaluated in a frame that executes the body. -/
def Evaluates (policy : Policy) (program node : Node) (frame : Frame) : Prop :=
  ∃ body, policy.executes program body frame ∧ node ∈ body.own

/-- Evaluators that keep to the rules in every frame that executes a body. -/
def Evaluators (policy : Policy) (evaluate : Evaluator) : Prop :=
  ∀ program node frame, policy.Evaluates program node frame →
    policy.Keeps (policy.Exits program node) (fun _ => True) (evaluate node frame)

variable {policy : Policy} {exits : ε → Prop} {results : α → Prop} {others : β → Prop}
  {program node part : Node} {frame : Frame} {span : Span}

/-- The signals of an exposed part of a construct are signals of the construct. -/
theorem Exits.outward {exit : Exit} (inside : part ∈ node.exposed)
    (fine : policy.Exits program part exit) : policy.Exits program node exit := by
  cases fine with
  | failed fine => exact .failed fine
  | returned value => exact .returned value
  | broke loose => exact .broke (Node.loose_subset inside loose)
  | continued loose => exact .continued (Node.loose_subset inside loose)

namespace Keeps

/-- A step with few exits and results has no more in weaker terms. -/
theorem imp {step : Action ε α} {exits' : ε → Prop} {results' : α → Prop}
    (kept : policy.Keeps exits results step) (weaken : ∀ cause, exits cause → exits' cause)
    (weakenResults : ∀ result, results result → results' result) :
    policy.Keeps exits' results' step := by
  intro state states
  have ended := kept state states
  generalize step state = outcome at ended ⊢
  cases ended with
  | value fine after => exact .value (weakenResults _ fine) after
  | exit fine after => exact .exit (weaken _ fine) after
  | unfinished => exact .unfinished

/-- A result by itself changes nothing. -/
theorem pure {result : α} (fine : results result) : policy.Keeps exits results (pure result) :=
  fun _ states => .value fine states

/-- Two steps in a row. -/
theorem bind {first : Action ε α} {next : α → Action ε β}
    (kept : policy.Keeps exits results first)
    (nexts : ∀ result, results result → policy.Keeps exits others (next result)) :
    policy.Keeps exits others (first >>= next) := by
  -- Only a value leads on to the second step.
  intro state states
  have ended := kept state states
  rw [Action.bind_apply]
  generalize first state = outcome at ended ⊢
  cases ended with
  | value fine after => exact nexts _ fine _ after
  | exit fine after => exact .exit fine after
  | unfinished => exact .unfinished

/-- An early exit changes nothing. -/
theorem leave {cause : ε} (fine : exits cause) :
    policy.Keeps exits results (Action.leave cause) :=
  fun _ states => .exit fine states

/-- A failure that may be told. -/
theorem fail {cause : EvalError.Cause} (blames : policy.Blames program frame span)
    (ordinary : cause.ordinary) :
    policy.Keeps (policy.errors program) results (Action.fail frame cause span) :=
  leave (blames cause ordinary)

/-- A step that is cut off leaves no state behind. -/
theorem cutOff : policy.Keeps exits results Action.cutOff :=
  fun _ _ => .unfinished

/-- Looking at a store changes nothing. -/
theorem look {view : Store → α} (views : ∀ store, policy.holds store → results (view store)) :
    policy.Keeps exits results (Action.look view) :=
  fun _ states => .value (views _ states.store) states

/-- A change of the store by which the rules still hold. -/
theorem change {update : Store → Store}
    (updates : ∀ store, policy.holds store → policy.holds (update store)) :
    policy.Keeps exits (fun _ => True) (Action.change update) :=
  fun _ states => .value trivial ⟨updates _ states.store, states.scripts⟩

/-- An addition to the store by which the rules still hold. -/
theorem make {update : Store → α × Store}
    (updates : ∀ store, policy.holds store → policy.holds (update store).2) :
    policy.Keeps exits (fun _ => True) (Action.make update) :=
  fun _ states => .value trivial ⟨updates _ states.store, states.scripts⟩

/-- A step whose early exits are told in other terms. -/
theorem mapExit {told : ε → ε'} {exits' : ε' → Prop} {step : Action ε α}
    (kept : policy.Keeps exits results step) (tells : ∀ cause, exits cause → exits' (told cause)) :
    policy.Keeps exits' results (step.mapExit told) := by
  intro state states
  have ended := kept state states
  unfold Action.mapExit
  generalize step state = outcome at ended ⊢
  cases ended with
  | value fine after => exact .value fine after
  | exit fine after => exact .exit (tells _ fine) after
  | unfinished => exact .unfinished

/-- A step that can only fail, as a step of an evaluation. -/
theorem lift {step : Action EvalError α} (kept : policy.Keeps (policy.errors program) results step) :
    policy.Keeps (policy.Exits program node) results (liftM step : Action Exit α) :=
  mapExit kept fun _ fine => .failed fine

/-- A new list. -/
theorem makeList (lawful : policy.Lawful) (elements : Array Value) :
    policy.Keeps exits (fun _ => True) (Action.makeList elements) :=
  bind (make fun _ held => lawful.addList elements held) fun _ _ => pure trivial

/-- What an operation yields. -/
theorem yield (lawful : policy.Lawful) (result : Operation.Result) :
    policy.Keeps exits (fun _ => True) (Action.yield result) := by
  -- Only a list has to be made.
  cases result with
  | value value => exact pure trivial
  | list elements => exact makeList lawful elements

/-- The text of a value. -/
theorem textOf (value : Value) : policy.Keeps exits (fun _ => True) (Action.textOf value) := by
  -- Without a text it is cut off.
  have seen : policy.Keeps exits (fun _ => True) (Action.look (·.text? value)) :=
    look fun _ _ => trivial
  apply bind seen
  intro text _
  cases text with
  | none => exact cutOff
  | some text => exact pure trivial

/-- A deed that leaves the scripts of the world as they are. -/
theorem perform {deed : Host → Except String Host} (blames : policy.Blames program frame span)
    (sameScripts : ∀ host host', deed host = .ok host' → host'.scripts = host.scripts) :
    policy.Keeps (policy.errors program) (fun _ => True) (Action.perform frame span deed) := by
  rintro ⟨store, host⟩ ⟨held, scripts⟩
  simp only [Action.perform]
  cases done : deed host with
  | ok host' => exact .value trivial ⟨held, (sameScripts host host' done).trans scripts⟩
  | error reason => exact .exit (blames _ rfl) ⟨held, scripts⟩

/-- Reading a line leaves the scripts of the world as they are. -/
theorem readLine (blames : policy.Blames program frame span) :
    policy.Keeps (policy.errors program) (fun _ => True) (Action.readLine frame span) := by
  rintro ⟨store, host⟩ ⟨held, scripts⟩
  have same := host.readLine_scripts
  simp only [Action.readLine]
  generalize host.readLine = read at same ⊢
  have after : policy.States ⟨store, read.2⟩ := ⟨held, same.trans scripts⟩
  rcases read with ⟨reason | line | _, host'⟩
  · exact .exit (blames _ rfl) after
  · exact .exit (blames _ rfl) after
  · exact .value trivial after

/-- Counting the lines that are left changes nothing. -/
theorem linesLeft : policy.Keeps exits (fun _ => True) Action.linesLeft :=
  fun _ states => .value trivial states

/-- Asking for the room that there is changes nothing. -/
theorem memory : policy.Keeps exits (fun _ => True) Action.memory :=
  fun _ states => .value trivial states

/-- Loading a script yields one of those that there are. -/
theorem load (name : String) :
    policy.Keeps exits (fun script => policy.scripts name = script) (Action.load name) := by
  rintro ⟨store, host⟩ ⟨held, scripts⟩
  exact .value (congrFun scripts.symm name) ⟨held, scripts⟩

/-- The end of a body that is executed in a frame. -/
theorem settle {body : Node} {step : Action Exit Value} (lawful : policy.Lawful)
    (executed : policy.executes program body frame)
    (kept : policy.Keeps (policy.Exits program body) (fun _ => True) step) :
    policy.Keeps (policy.errors program) (fun _ => True) (Action.settle frame step) := by
  -- A signal that comes this far is one that no loop of the body takes.
  intro state states
  have ended := kept state states
  unfold Action.settle
  generalize step state = outcome at ended ⊢
  cases ended with
  | value fine after => exact .value trivial after
  | unfinished => exact .unfinished
  | exit fine after =>
    cases fine with
    | failed fine => exact .exit fine after
    | returned value => exact .value trivial after
    | broke loose => exact .exit (lawful.escapes executed loose) after
    | continued loose => exact .exit (lawful.escapes executed loose) after

/-- A round of a loop, whose body may raise signals that the loop takes. -/
theorem round {step : Action Exit Value}
    (kept : policy.Keeps (policy.Exits program part) (fun _ => True) step) :
    policy.Keeps (policy.Exits program node) (fun _ => True) (Action.round step) := by
  intro state states
  have ended := kept state states
  unfold Action.round
  generalize step state = outcome at ended ⊢
  cases ended with
  | value fine after => exact .value trivial after
  | unfinished => exact .unfinished
  | exit fine after =>
    cases fine with
    | failed fine => exact .exit (.failed fine) after
    | returned value => exact .exit (.returned value) after
    | broke loose => exact .value trivial after
    | continued loose => exact .value trivial after

end Keeps

end Policy

end Scriptlet
