import Scriptlet.Proofs.Eval.Constructs

/-!
Habits: what every step does that a program can take, every program does. They are about dealings
with the world; whatever a step does to the store, it may.
-/

namespace Scriptlet

/-- Steps in a row that can only fail are steps in a row of an evaluation. -/
theorem Action.lift_bind {α β : Type} (first : Action EvalError α)
    (next : α → Action EvalError β) :
    (liftM (first >>= next) : Action Exit β) =
      (liftM first : Action Exit α) >>= fun result => liftM (next result) := by
  funext state
  show (first >>= next).mapExit Exit.failed state = (first.mapExit Exit.failed >>= _) state
  simp only [Action.bind_apply, Action.mapExit]
  cases first state <;> rfl

/-- The built-in functions that read lines. -/
def Builtin.reads : Builtin → Bool
  | .input | .inputInt => true
  | _ => false

/--
A property of steps that single steps have, and steps that are made of others if those have it.
Steps that read lines need not have it, unless they are meant as well. Loading a script without a
result always comes to a failure.
-/
structure Habit where
  reading : Prop
  Keeps {α : Type} (step : Action Exit α) : Prop
  pure {α : Type} (result : α) : Keeps (pure result)
  bind {α β : Type} {first : Action Exit α} {next : α → Action Exit β} (firsts : Keeps first)
    (nexts : ∀ result, Keeps (next result)) : Keeps (first >>= next)
  leave {α : Type} (cause : Exit) : Keeps (Action.leave cause : Action Exit α)
  cutOff {α : Type} : Keeps (Action.cutOff : Action Exit α)
  look {α : Type} (view : Store → α) : Keeps (Action.look view)
  make {α : Type} (update : Store → α × Store) : Keeps (Action.make update)
  writeLine (frame : Frame) (site : Span) (line : String) :
    Keeps (liftM (Action.perform frame site (Host.writeLine line)))
  clear (frame : Frame) (site : Span) : Keeps (liftM (Action.perform frame site Host.clear))
  readLine (meant : reading) (frame : Frame) (site : Span) :
    Keeps (liftM (Action.readLine frame site))
  linesLeft (meant : reading) : Keeps Action.linesLeft
  memory : Keeps Action.memory
  load {α : Type} {next : Except String String → Action Exit α} (name : String)
    (loaded : ∀ text, Keeps (next (.ok text)))
    (missing : ∀ reason, ∃ error, next (.error reason) = Action.leave (.failed error)) :
    Keeps (Action.load name >>= next)
  settle {body : Action Exit Value} (frame : Frame) (kept : Keeps body) :
    Keeps (liftM (Action.settle frame body))
  round {body : Action Exit Value} (kept : Keeps body) : Keeps (Action.round body)
  retell {α : Type} {step : Action EvalError α} (told : EvalError → EvalError)
    (kept : Keeps (liftM step)) : Keeps (liftM (step.mapExit told))

namespace Habit

variable {habit : Habit} {evaluate : Evaluator} {α β : Type}

/-- A step that can only fail has a habit as a step of an evaluation. -/
def Fails (habit : Habit) (step : Action EvalError α) : Prop :=
  habit.Keeps (liftM step : Action Exit α)

/-- Evaluators with the habit. -/
def Evaluates (habit : Habit) (evaluate : Evaluator) : Prop :=
  ∀ node frame, habit.Keeps (evaluate node frame)

/-- Built-in functions with the habit, if what evaluates the scripts has it. -/
def Calls (habit : Habit) (library : Library) : Prop :=
  ∀ evaluate, habit.Evaluates evaluate → ∀ frame site (function : Builtin) arguments,
    arguments.length = function.parameters.length →
      habit.Fails (library evaluate frame site function arguments)

variable {library : Library}

/-- A change of the store makes nothing new. -/
theorem change (update : Store → Store) : habit.Keeps (Action.change update) :=
  habit.make fun store => ((), update store)

namespace Fails

/-- A result by itself. -/
theorem pure (result : α) : habit.Fails (Pure.pure result : Action EvalError α) :=
  habit.pure result

/-- Two steps in a row. -/
theorem bind {first : Action EvalError α} {next : α → Action EvalError β}
    (firsts : habit.Fails first) (nexts : ∀ result, habit.Fails (next result)) :
    habit.Fails (first >>= next) := by
  unfold Fails
  rw [Action.lift_bind]
  exact habit.bind firsts nexts

/-- A failure. -/
theorem fail (frame : Frame) (cause : EvalError.Cause) (span : Span) :
    habit.Fails (Action.fail frame cause span : Action EvalError α) :=
  habit.leave (.failed (frame.error cause span))

/-- Looking at the store. -/
theorem look (view : Store → α) : habit.Fails (Action.look view : Action EvalError α) :=
  habit.look view

/-- A change of the store. -/
theorem change (update : Store → Store) :
    habit.Fails (Action.change update : Action EvalError Unit) :=
  habit.change update

/-- An addition to the store. -/
theorem make (update : Store → α × Store) : habit.Fails (Action.make update : Action EvalError α) :=
  habit.make update

/-- The text of a value. -/
theorem textOf (value : Value) : habit.Fails (Action.textOf value : Action EvalError String) := by
  apply bind (look _)
  intro text
  cases text with
  | none => exact habit.cutOff
  | some text => exact pure text

end Fails

/-- A new list. -/
theorem makeList (elements : Array Value) : habit.Keeps (Action.makeList elements) :=
  habit.bind (habit.make _) fun _ => habit.pure _

/-- What an operation yields. -/
theorem yield (result : Operation.Result) : habit.Keeps (Action.yield result) := by
  cases result with
  | value value => exact habit.pure value
  | list elements => exact makeList elements

/-- The values of constructs. -/
theorem Evaluates.values (kept : habit.Evaluates evaluate) (frame : Frame) (nodes : List Node) :
    habit.Keeps (Eval.values evaluate frame nodes) := by
  -- The induction goes along the constructs.
  induction nodes with
  | nil => exact habit.pure []
  | cons node rest ih =>
    exact habit.bind (kept node frame) fun _ => habit.bind ih fun _ => habit.pure _

/-- A list of the values of constructs. -/
theorem Evaluates.list (kept : habit.Evaluates evaluate) (frame : Frame) (nodes : List Node) :
    habit.Keeps (Eval.list evaluate frame nodes) :=
  habit.bind (kept.values frame nodes) fun _ => makeList _

/-- A construct that has to be a number. -/
theorem Evaluates.number (kept : habit.Evaluates evaluate) (frame : Frame) (node : Node) :
    habit.Keeps (Eval.number evaluate frame node) := by
  apply habit.bind (kept node frame)
  intro value
  split
  · exact habit.pure _
  · exact Fails.fail _ _ _

/-- A variable. -/
theorem reference (frame : Frame) (span : Span) (name : String) :
    habit.Fails (Eval.reference frame span name) := by
  apply Fails.bind (Fails.look _)
  intro value
  cases value with
  | none => exact Fails.fail _ _ _
  | some value => exact Fails.pure value

/-- An operator on two operands. -/
theorem Evaluates.binary (kept : habit.Evaluates evaluate) (frame : Frame) (span : Span)
    (operator : BinaryOperator) (left right : Node) :
    habit.Keeps (Eval.binary evaluate frame span operator left right) := by
  apply habit.bind (kept left frame)
  intro leftValue
  apply habit.bind (kept right frame)
  intro rightValue
  apply habit.bind habit.memory
  intro memory
  apply habit.bind (habit.look _)
  intro result
  cases result with
  | ok result => exact yield result
  | error fault => exact Fails.fail _ _ _

/-- An operator on one operand. -/
theorem Evaluates.unary (kept : habit.Evaluates evaluate) (frame : Frame) (span : Span)
    (operator : UnaryOperator) (operand : Node) :
    habit.Keeps (Eval.unary evaluate frame span operator operand) := by
  apply habit.bind (kept operand frame)
  intro value
  apply habit.bind (habit.look _)
  intro result
  cases result with
  | ok result => exact habit.pure result
  | error fault => exact Fails.fail _ _ _

/-- A body. -/
theorem Evaluates.body (kept : habit.Evaluates evaluate) (frame : Frame) (node : Node)
    (form : BodyForm) : habit.Keeps (Eval.body evaluate frame node form) :=
  habit.bind (kept node frame) fun _ => habit.pure _

/-- The first body whose condition is true. -/
theorem Evaluates.choices (kept : habit.Evaluates evaluate) (frame : Frame) (choices : Choices) :
    habit.Keeps (Eval.choices evaluate frame choices) := by
  cases choices with
  | none => exact habit.pure _
  | otherwise node form => exact kept.body frame node form
  | test condition node form rest =>
    -- Each further condition comes behind the bodies before it.
    apply habit.bind (kept condition frame)
    intro value
    apply habit.bind (habit.look _)
    intro truth
    split
    · exact kept.body frame node form
    · exact kept.choices frame rest

/-- The values of a loop. -/
theorem collect (form : BodyForm) (values : Array Value) : habit.Keeps (form.collect values) := by
  cases form with
  | inline => exact makeList values
  | block => exact habit.pure _

/-- The rounds of a counted loop. -/
theorem countedRounds {round : Action Exit Action.Round} (kept : habit.Keeps round)
    (counting : Counting) (bind : Number → Store → Store) (form : BodyForm) (rounds : Nat)
    (counter : Number) (values : Array Value) :
    habit.Keeps (Eval.countedRounds counting bind round form rounds counter values) := by
  -- The induction is on how many rounds there may still be.
  induction rounds generalizing counter values with
  | zero => exact habit.cutOff
  | succ rounds ih =>
    rw [Eval.countedRounds_succ]
    split
    · apply habit.bind (change _)
      intro _
      apply habit.bind kept
      intro ended
      cases ended with
      | next yielded => exact ih _ _
      | last => exact collect form values
    · exact collect form values

/-- The rounds of a conditional loop. -/
theorem conditionalRounds {condition : Action Exit Value} {round : Action Exit Action.Round}
    (tests : habit.Keeps condition) (kept : habit.Keeps round) (form : BodyForm) (rounds : Nat)
    (values : Array Value) :
    habit.Keeps (Eval.conditionalRounds condition round form rounds values) := by
  -- The induction is on how many rounds there may still be.
  induction rounds generalizing values with
  | zero => exact habit.cutOff
  | succ rounds ih =>
    rw [Eval.conditionalRounds_succ]
    apply habit.bind tests
    intro value
    apply habit.bind (habit.look _)
    intro truth
    split
    · apply habit.bind kept
      intro ended
      cases ended with
      | next yielded => exact ih _
      | last => exact collect form values
    · exact collect form values

/-- A counted loop. -/
theorem Evaluates.forLoop (kept : habit.Evaluates evaluate) (frame : Frame) (rounds : Nat)
    (name : String) (first bound : Node) (step : Option Node) (node : Node) (form : BodyForm) :
    habit.Keeps (Eval.forLoop evaluate frame rounds name first bound step node form) := by
  apply habit.bind (kept.number frame first)
  intro start
  apply habit.bind (kept.number frame bound)
  intro last
  have steps : habit.Keeps (Eval.stepOf evaluate frame step) := by
    cases step with
    | none => exact habit.pure _
    | some step => exact kept.number frame step
  apply habit.bind steps
  intro step
  exact countedRounds (habit.round (kept node frame)) _ _ form rounds start #[]

/-- A new function, and the variable of its name. -/
theorem function (frame : Frame) (name : Option String) (parameters : List String) (body : Node)
    (form : BodyForm) :
    habit.Keeps (Eval.function frame name parameters body form) := by
  apply habit.bind (habit.make _)
  intro closure
  cases name with
  | none => exact habit.pure _
  | some name => exact habit.bind (change _) fun _ => habit.pure _

/-- A call of a function made by a program. -/
theorem Evaluates.callClosure (kept : habit.Evaluates evaluate) (frame : Frame) (site : Span)
    (closure : Closure) (arguments : List Value) :
    habit.Fails (Eval.callClosure evaluate frame site closure arguments) := by
  apply Fails.bind (Fails.make _)
  intro scope
  apply Fails.bind (Fails.change _)
  intro _
  exact habit.settle _ (kept.body _ closure.body closure.form)

/-- Printing a value. -/
theorem print (frame : Frame) (site : Span) (value : Value) :
    habit.Fails (Eval.print frame site value) :=
  Fails.bind (Fails.textOf value) fun text =>
    Fails.bind (habit.writeLine frame site text) fun _ => Fails.pure _

/-- Reading an integer. -/
theorem inputInteger (meant : habit.reading) (frame : Frame) (site : Span) :
    habit.Fails (Eval.inputInteger frame site) := by
  have integers (lines : Nat) : habit.Fails (Eval.readInteger frame site lines) := by
    -- The induction is on how many lines are left.
    induction lines with
    | zero => exact habit.cutOff
    | succ lines ih =>
      apply Fails.bind (habit.readLine meant frame site)
      intro line
      split
      · exact Fails.pure _
      · exact Fails.bind (habit.writeLine frame site _) fun _ => ih
  exact Fails.bind (habit.linesLeft meant) fun lines =>
    Fails.bind (integers (lines + 1)) fun _ => Fails.pure _

/-- Taking an element out of a list. -/
theorem pop (frame : Frame) (site : Span) (target index : Value) :
    habit.Fails (Eval.pop frame site target index) := by
  unfold Eval.pop
  split
  · apply Fails.bind (Fails.look _)
    intro elements
    split
    · exact Fails.fail _ _ _
    · exact Fails.bind (Fails.change _) fun _ => Fails.pure _
  · exact Fails.fail _ _ _
  · exact Fails.fail _ _ _

/-- Putting elements at the end of a list. -/
theorem append (frame : Frame) (site : Span) (target value : Value) :
    habit.Fails (Eval.append frame site target value) := by
  unfold Eval.append
  split
  · exact Fails.bind (Fails.change _) fun _ => Fails.pure _
  · exact Fails.fail _ _ _

/-- Putting the elements of a list at the end of another one. -/
theorem extend (frame : Frame) (site : Span) (target other : Value) :
    habit.Fails (Eval.extend frame site target other) := by
  unfold Eval.extend
  split
  · apply Fails.bind (Fails.look _)
    intro extra
    exact Fails.bind (Fails.change _) fun _ => Fails.pure _
  · exact Fails.fail _ _ _
  · exact Fails.fail _ _ _

/-- Counting elements or characters. -/
theorem length (frame : Frame) (site : Span) (value : Value) :
    habit.Fails (Eval.length frame site value) := by
  unfold Eval.length
  split
  · exact Fails.bind (Fails.look _) fun _ => Fails.pure _
  · exact Fails.pure _
  · exact Fails.fail _ _ _

/-- The value of a program. -/
theorem Evaluates.runProgram (kept : habit.Evaluates evaluate) (program : Node)
    (globals scope : ScopeId) : habit.Fails (Eval.runProgram evaluate program globals scope) :=
  habit.settle _ (kept program _)

/-- Running a script that was loaded. -/
theorem Evaluates.runScript (kept : habit.Evaluates evaluate) (frame : Frame) (site : Span)
    (name text : String) : habit.Fails (Eval.runScript evaluate frame site name text) := by
  apply Fails.bind (Fails.make _)
  intro scope
  cases ({ name, text } : Source).program with
  | error error => exact Fails.fail _ _ _
  | ok program =>
    exact Fails.bind (habit.retell _ (kept.runProgram program _ scope)) fun _ => Fails.pure _

/-- Loading a script and running it. -/
theorem Evaluates.run (kept : habit.Evaluates evaluate) (frame : Frame) (site : Span)
    (value : Value) : habit.Fails (Eval.run evaluate frame site value) := by
  unfold Eval.run
  split
  · rename_i name
    unfold Fails
    rw [Action.lift_bind]
    refine habit.load name (fun text => kept.runScript frame site name text) ?_
    intro reason
    exact ⟨frame.error (.scriptNotLoaded name reason) site, rfl⟩
  · exact Fails.fail _ _ _

/-- What a built-in function does. -/
theorem Evaluates.builtin (kept : habit.Evaluates evaluate) (frame : Frame) (site : Span)
    {function : Builtin} (meant : function.reads → habit.reading) {arguments : List Value}
    (fits : arguments.length = function.parameters.length) :
    habit.Fails (Eval.builtin evaluate frame site function arguments) := by
  -- One case for each function.
  rw [Eval.builtin_eq_effect fits]
  cases function with
  | print => exact print frame site _
  | inputInt => exact inputInteger (meant rfl) frame site
  | clear => exact Fails.bind (habit.clear frame site) fun _ => Fails.pure _
  | isNumber | isText | isList | isFunction => exact Fails.pure _
  | append => exact append frame site _ _
  | pop => exact pop frame site _ _
  | extend => exact extend frame site _ _
  | length => exact length frame site _
  | run => exact kept.run frame site _
  | printRet => exact Fails.bind (Fails.textOf _) fun _ => Fails.pure _
  | input => exact Fails.bind (habit.readLine (meant rfl) frame site) fun _ => Fails.pure _

/-- A call of any value. -/
theorem Calls.callValue (calls : habit.Calls library) (kept : habit.Evaluates evaluate)
    (frame : Frame) (site : Span) (callee : Value) (arguments : List Value) :
    habit.Fails (Eval.callValue library evaluate frame site callee arguments) := by
  unfold Eval.callValue
  split
  · apply Fails.bind (Fails.look _)
    intro closure
    cases closure with
    | none => exact Fails.fail _ _ _
    | some closure =>
      dsimp only
      split
      · exact Fails.fail _ _ _
      · exact kept.callClosure frame site closure arguments
  · split
    · exact Fails.fail _ _ _
    · rename_i fits
      exact calls evaluate kept _ site _ arguments (Eval.length_of_arityError fits)
  · exact Fails.fail _ _ _

/-- The end of a function. -/
theorem Evaluates.returning (kept : habit.Evaluates evaluate) (frame : Frame)
    (value : Option Node) : habit.Keeps (Eval.returning evaluate frame value) := by
  cases value with
  | none => exact habit.leave _
  | some node => exact habit.bind (kept node frame) fun _ => habit.leave _

/-- A construct has the habits of the constructs in it. -/
theorem Calls.construct (calls : habit.Calls library) (kept : habit.Evaluates evaluate)
    (rounds : Nat) : habit.Evaluates (Eval.construct library evaluate rounds) := by
  -- One case for each kind of construct.
  intro node frame
  cases node with
  | int | float | text => exact habit.pure _
  | list span items | sequence span items => exact kept.list frame items
  | reference span name => exact reference frame span name
  | assign span name value =>
    exact habit.bind (kept value frame) fun _ => habit.bind (habit.make _) fun _ =>
      habit.bind (change _) fun _ => habit.pure _
  | binary span operator left right => exact kept.binary frame span operator left right
  | unary span operator operand => exact kept.unary frame span operator operand
  | conditional span choices => exact kept.choices frame choices
  | forLoop span name first bound step body form =>
    exact kept.forLoop frame rounds name first bound step body form
  | whileLoop span condition body form =>
    exact conditionalRounds (kept condition frame) (habit.round (kept body frame)) form rounds #[]
  | function span name parameters body form => exact function frame name parameters body form
  | call site callee arguments =>
    exact habit.bind (kept callee frame) fun _ => habit.bind (kept.values frame arguments) fun _ =>
      calls.callValue kept frame site _ _
  | returning span value => exact kept.returning frame value
  | continuing span | breaking span => exact habit.leave _

/-- Evaluations have every habit that their built-in functions have. -/
theorem Calls.evaluates (calls : habit.Calls library) (reach : Nat) :
    habit.Evaluates (evaluateWith library reach) := by
  induction reach with
  | zero => exact fun _ _ => habit.cutOff
  | succ reach ih => exact calls.construct ih reach

/-- Every evaluation has every habit that reading lines has. -/
theorem evaluates (meant : habit.reading) (reach : Nat) :
    habit.Evaluates (Scriptlet.evaluate reach) :=
  Calls.evaluates (fun _ kept frame site _ _ fits =>
    kept.builtin frame site (fun _ => meant) fits) reach

end Habit

end Scriptlet
