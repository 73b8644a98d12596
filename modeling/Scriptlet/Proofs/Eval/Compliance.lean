import Scriptlet.Proofs.Eval.Constructs
import Scriptlet.Proofs.Eval.Policy

/-! Every evaluation keeps to rules that its steps keep, up to any state that it may be stopped in. -/

namespace Scriptlet

namespace Policy

variable {policy : Policy} {evaluate : Evaluator} {program node inner : Node} {frame : Frame}
  {ε : Type} {exits : ε → Prop}

/-- What is evaluated together with a construct is evaluated in the same frame. -/
theorem Evaluates.part (evaluated : policy.Evaluates program node frame)
    (inside : inner ∈ node.own) : policy.Evaluates program inner frame := by
  obtain ⟨body, executed, outer⟩ := evaluated
  exact ⟨body, executed, Node.mem_own_trans outer inside⟩

/-- Ordinary errors may arise at every construct that is evaluated. -/
theorem Evaluates.blames (evaluated : policy.Evaluates program node frame)
    (lawful : policy.Lawful) : policy.Blames program frame node.span := by
  obtain ⟨body, executed, inside⟩ := evaluated
  exact fun _ ordinary => lawful.fails executed inside ordinary

/-- A part of a construct, whose signals the construct does not take. -/
theorem Evaluators.part (evaluators : policy.Evaluators evaluate)
    (evaluated : policy.Evaluates program node frame) (exposed : inner ∈ node.exposed) :
    policy.Keeps (policy.Exits program node) (fun _ => True) (evaluate inner frame) :=
  (evaluators program inner frame (evaluated.part (Node.mem_own_of_mem_exposed exposed))).imp
    (fun _ => Exits.outward exposed) fun _ _ => trivial

/-- Parts of a construct, from left to right. -/
theorem Evaluators.values {nodes : List Node} (evaluators : policy.Evaluators evaluate)
    (evaluated : policy.Evaluates program node frame) (parts : nodes ⊆ node.exposed) :
    policy.Keeps (policy.Exits program node) (fun _ => True)
      (Eval.values evaluate frame nodes) := by
  -- The induction goes along the parts.
  induction nodes with
  | nil => exact .pure trivial
  | cons first rest ih =>
    apply Keeps.bind (evaluators.part evaluated (parts List.mem_cons_self))
    intro value _
    apply Keeps.bind (ih fun _ member => parts (List.mem_cons_of_mem first member))
    intro row _
    exact .pure trivial

/-- A list of parts of a construct. -/
theorem Evaluators.list {nodes : List Node} (lawful : policy.Lawful)
    (evaluators : policy.Evaluators evaluate) (evaluated : policy.Evaluates program node frame)
    (parts : nodes ⊆ node.exposed) :
    policy.Keeps (policy.Exits program node) (fun _ => True) (Eval.list evaluate frame nodes) := by
  apply Keeps.bind (evaluators.values evaluated parts)
  intro row _
  exact Keeps.makeList lawful row.toArray

/-- A part of a construct that has to be a number fails at itself if it is none. -/
theorem Evaluators.number (lawful : policy.Lawful) (evaluators : policy.Evaluators evaluate)
    (evaluated : policy.Evaluates program node frame) (exposed : inner ∈ node.exposed) :
    policy.Keeps (policy.Exits program node) (fun _ => True) (Eval.number evaluate frame inner) := by
  have blames := (evaluated.part (Node.mem_own_of_mem_exposed exposed)).blames lawful
  apply Keeps.bind (evaluators.part evaluated exposed)
  intro value _
  split
  · exact .pure trivial
  · exact Keeps.lift (Keeps.fail blames rfl)

/-- The value of a variable. -/
theorem Evaluates.reference {span : Span} {name : String} (lawful : policy.Lawful)
    (evaluated : policy.Evaluates program (.reference span name) frame) :
    policy.Keeps (policy.errors program) (fun _ => True) (Eval.reference frame span name) := by
  have found : policy.Keeps (policy.errors program) (fun _ => True)
      (Action.look (·.lookup frame.scope name)) := .look fun _ _ => trivial
  apply Keeps.bind found
  intro value _
  cases value with
  | none => exact .fail (evaluated.blames lawful) rfl
  | some value => exact .pure trivial

/-- A variable is given a copy of a value. -/
theorem Lawful.assignCopy (lawful : policy.Lawful) (scope : ScopeId) (name : String)
    (value : Value) :
    policy.Keeps exits (fun _ => True) (do
      let copy ← Action.make (Store.copy value)
      Action.change (Store.define scope name copy)
      return copy) :=
  -- The rules need not hold of a variable with the value itself, so both steps are taken at once.
  fun _ states => .value trivial ⟨lawful.defineCopy scope name value states.store, states.scripts⟩

/-- A variable is given a copy of the value of a part of a construct. -/
theorem Evaluators.assign (lawful : policy.Lawful) (evaluators : policy.Evaluators evaluate)
    (evaluated : policy.Evaluates program node frame) (exposed : inner ∈ node.exposed)
    (name : String) :
    policy.Keeps (policy.Exits program node) (fun _ => True)
      (Eval.assign evaluate frame name inner) := by
  apply Keeps.bind (evaluators.part evaluated exposed)
  intro value _
  exact lawful.assignCopy frame.scope name value

/-- An operator on two operands fails as a whole or at its right operand. -/
theorem Evaluators.binary {span : Span} {operator : BinaryOperator} {left right : Node}
    (lawful : policy.Lawful) (evaluators : policy.Evaluators evaluate)
    (evaluated : policy.Evaluates program (.binary span operator left right) frame) :
    policy.Keeps (policy.Exits program (.binary span operator left right)) (fun _ => True)
      (Eval.binary evaluate frame span operator left right) := by
  -- Signals of both operands leave the construct.
  have lefts : left ∈ (Node.binary span operator left right).exposed := by
    simp [Node.exposed, Node.constructs]
  have rights : right ∈ (Node.binary span operator left right).exposed := by
    simp [Node.exposed, Node.constructs]
  have blames := evaluated.blames lawful
  have blamesRight := (evaluated.part (Node.mem_own_of_mem_exposed rights)).blames lawful
  apply Keeps.bind (evaluators.part evaluated lefts)
  intro leftValue _
  apply Keeps.bind (evaluators.part evaluated rights)
  intro rightValue _
  apply Keeps.bind Keeps.memory
  intro memory _
  have applied : policy.Keeps (policy.Exits program (.binary span operator left right))
      (fun _ => True) (Action.look (Operation.binary memory operator leftValue rightValue)) :=
    .look fun _ _ => trivial
  apply Keeps.bind applied
  intro result _
  cases result with
  | ok result => exact Keeps.yield lawful result
  | error fault =>
    -- Illegal operations blame the whole construct, and other faults the right operand.
    have blamed : policy.Blames program frame (if fault = .illegal then span else right.span) := by
      split
      · exact blames
      · exact blamesRight
    exact Keeps.lift (Keeps.fail blamed rfl)

/-- An operator on one operand. -/
theorem Evaluators.unary {span : Span} {operator : UnaryOperator} {operand : Node}
    (lawful : policy.Lawful) (evaluators : policy.Evaluators evaluate)
    (evaluated : policy.Evaluates program (.unary span operator operand) frame) :
    policy.Keeps (policy.Exits program (.unary span operator operand)) (fun _ => True)
      (Eval.unary evaluate frame span operator operand) := by
  have exposed : operand ∈ (Node.unary span operator operand).exposed := by
    simp [Node.exposed, Node.constructs]
  apply Keeps.bind (evaluators.part evaluated exposed)
  intro value _
  have applied : policy.Keeps (policy.Exits program (.unary span operator operand))
      (fun _ => True) (Action.look (Operation.unary operator value)) := .look fun _ _ => trivial
  apply Keeps.bind applied
  intro result _
  cases result with
  | ok result => exact .pure trivial
  | error fault => exact Keeps.lift (Keeps.fail (evaluated.blames lawful) rfl)

/-- A body that is part of a construct. -/
theorem Evaluators.body (evaluators : policy.Evaluators evaluate)
    (evaluated : policy.Evaluates program node frame) (exposed : inner ∈ node.exposed)
    (form : BodyForm) :
    policy.Keeps (policy.Exits program node) (fun _ => True)
      (Eval.body evaluate frame inner form) := by
  apply Keeps.bind (evaluators.part evaluated exposed)
  intro value _
  exact .pure trivial

/-- The first body of a construct whose condition is true. -/
theorem Evaluators.choices (evaluators : policy.Evaluators evaluate)
    (evaluated : policy.Evaluates program node frame) :
    ∀ choices : Choices, choices.constructs false false ⊆ node.exposed →
      policy.Keeps (policy.Exits program node) (fun _ => True)
        (Eval.choices evaluate frame choices)
  | .none, _ => .pure trivial
  | .otherwise body form, parts =>
    evaluators.body evaluated (parts body.mem_constructs_self) form
  | .test condition body form rest, parts => by
    -- Each further condition comes behind the bodies before it.
    simp only [Choices.constructs, List.append_subset] at parts
    obtain ⟨⟨conditions, bodies⟩, others⟩ := parts
    apply Keeps.bind (evaluators.part evaluated (conditions condition.mem_constructs_self))
    intro value _
    have tested : policy.Keeps (policy.Exits program node) (fun _ => True)
        (Action.look (·.truth value)) := .look fun _ _ => trivial
    apply Keeps.bind tested
    intro truth _
    split
    · exact evaluators.body evaluated (bodies body.mem_constructs_self) form
    · exact evaluators.choices evaluated rest others

/-- The values of a loop. -/
theorem Lawful.collect (lawful : policy.Lawful) (form : BodyForm) (values : Array Value) :
    policy.Keeps exits (fun _ => True) (form.collect values) := by
  cases form with
  | inline => exact Keeps.makeList lawful values
  | block => exact .pure trivial

/-- The rounds of a counted loop. -/
theorem Lawful.countedRounds {bind : Number → Store → Store} {round : Action Exit Action.Round}
    {exits : Exit → Prop} (lawful : policy.Lawful) (counting : Counting) (form : BodyForm)
    (binds : ∀ counter store, policy.holds store → policy.holds (bind counter store))
    (kept : policy.Keeps exits (fun _ => True) round) (rounds : Nat) (counter : Number)
    (values : Array Value) :
    policy.Keeps exits (fun _ => True)
      (Eval.countedRounds counting bind round form rounds counter values) := by
  -- The induction is on how many rounds there may still be.
  induction rounds generalizing counter values with
  | zero => exact fun _ _ => .unfinished
  | succ rounds ih =>
    rw [Eval.countedRounds_succ]
    split
    · apply Keeps.bind (Keeps.change (binds counter))
      intro _ _
      apply Keeps.bind kept
      intro ended _
      cases ended with
      | next yielded => exact ih _ _
      | last => exact lawful.collect form values
    · exact lawful.collect form values

/-- The rounds of a conditional loop. -/
theorem Lawful.conditionalRounds {condition : Action Exit Value}
    {round : Action Exit Action.Round} {exits : Exit → Prop} (lawful : policy.Lawful)
    (form : BodyForm) (tests : policy.Keeps exits (fun _ => True) condition)
    (kept : policy.Keeps exits (fun _ => True) round) (rounds : Nat) (values : Array Value) :
    policy.Keeps exits (fun _ => True)
      (Eval.conditionalRounds condition round form rounds values) := by
  -- The induction is on how many rounds there may still be.
  induction rounds generalizing values with
  | zero => exact fun _ _ => .unfinished
  | succ rounds ih =>
    rw [Eval.conditionalRounds_succ]
    apply Keeps.bind tests
    intro value _
    have tested : policy.Keeps exits (fun _ => True) (Action.look (·.truth value)) :=
      .look fun _ _ => trivial
    apply Keeps.bind tested
    intro truth _
    split
    · apply Keeps.bind kept
      intro ended _
      cases ended with
      | next yielded => exact ih _
      | last => exact lawful.collect form values
    · exact lawful.collect form values

/-- A counted loop takes the signals of its body only. -/
theorem Evaluators.forLoop {span : Span} {name : String} {first bound body : Node}
    {step : Option Node} {form : BodyForm} (lawful : policy.Lawful)
    (evaluators : policy.Evaluators evaluate)
    (evaluated : policy.Evaluates program (.forLoop span name first bound step body form) frame)
    (rounds : Nat) :
    policy.Keeps (policy.Exits program (.forLoop span name first bound step body form))
      (fun _ => True)
      (Eval.forLoop evaluate frame rounds name first bound step body form) := by
  -- Signals of the header leave the loop, and those of the body are taken by it.
  have firsts : first ∈ (Node.forLoop span name first bound step body form).exposed := by
    simp [Node.exposed, Node.constructs]
  have bounds : bound ∈ (Node.forLoop span name first bound step body form).exposed := by
    simp [Node.exposed, Node.constructs]
  have bodies : body ∈ (Node.forLoop span name first bound step body form).own := by
    simp [Node.own, Node.constructs]
  apply Keeps.bind (evaluators.number lawful evaluated firsts)
  intro start _
  apply Keeps.bind (evaluators.number lawful evaluated bounds)
  intro last _
  have steps : policy.Keeps (policy.Exits program (.forLoop span name first bound step body form))
      (fun _ => True) (Eval.stepOf evaluate frame step) := by
    cases step with
    | none => exact .pure trivial
    | some step =>
      apply evaluators.number lawful evaluated
      simp [Node.exposed, Node.constructs, Node.constructsOfOption]
  apply Keeps.bind steps
  intro step _
  exact lawful.countedRounds _ form (fun _ _ held => lawful.define _ name held (by simp))
    (evaluators program body frame (evaluated.part bodies)).round rounds start #[]

/-- A conditional loop takes the signals of its body only. -/
theorem Evaluators.whileLoop {span : Span} {condition body : Node} {form : BodyForm}
    (lawful : policy.Lawful) (evaluators : policy.Evaluators evaluate)
    (evaluated : policy.Evaluates program (.whileLoop span condition body form) frame)
    (rounds : Nat) :
    policy.Keeps (policy.Exits program (.whileLoop span condition body form)) (fun _ => True)
      (Eval.whileLoop evaluate frame rounds condition body form) := by
  have conditions : condition ∈ (Node.whileLoop span condition body form).exposed := by
    simp [Node.exposed, Node.constructs]
  have bodies : body ∈ (Node.whileLoop span condition body form).own := by
    simp [Node.own, Node.constructs]
  exact lawful.conditionalRounds form (evaluators.part evaluated conditions)
    (evaluators program body frame (evaluated.part bodies)).round rounds #[]

/-- A new function, and the variable of its name. -/
theorem Evaluates.function {span : Span} {name : Option String} {parameters : List String}
    {body : Node} {form : BodyForm} (lawful : policy.Lawful)
    (evaluated : policy.Evaluates program (.function span name parameters body form) frame) :
    policy.Keeps exits (fun _ => True) (Eval.function frame name parameters body form) := by
  obtain ⟨outer, executed, inside⟩ := evaluated
  have known := lawful.function executed inside
  apply Keeps.bind (Keeps.make fun _ held => lawful.addClosure held known)
  intro place _
  cases name with
  | none => exact .pure trivial
  | some name =>
    apply Keeps.bind (Keeps.change fun _ held => lawful.define frame.scope name held (by simp))
    intro _ _
    exact .pure trivial

/-- Parameters get copies of their arguments. -/
theorem Lawful.bindParameters (lawful : policy.Lawful) (scope : ScopeId)
    (given : List (String × Value)) {store : Store} (held : policy.holds store) :
    policy.holds (Eval.bindParameters scope given store) := by
  -- The induction goes along the parameters.
  induction given generalizing store with
  | nil => exact held
  | cons pair rest ih => exact ih (lawful.defineCopy scope pair.1 pair.2 held)

/-- A call of a function made by a program. -/
theorem Evaluators.callClosure {site : Span} {callee : Node} {arguments : List Node}
    {closure : Closure} {given : List Value} (lawful : policy.Lawful)
    (evaluators : policy.Evaluators evaluate)
    (evaluated : policy.Evaluates program (.call site callee arguments) frame)
    (known : policy.functions closure) :
    policy.Keeps (policy.errors program) (fun _ => True)
      (Eval.callClosure evaluate frame site closure given) := by
  obtain ⟨outer, executed, inside⟩ := evaluated
  apply Keeps.bind (Keeps.make fun _ held => lawful.enclose closure.scope held)
  intro scope _
  apply Keeps.bind (Keeps.change fun _ held => lawful.bindParameters scope _ held)
  intro _ _
  have entered := lawful.call scope executed inside known
  have whole : policy.Evaluates program closure.body
      { frame.enter closure.label site with scope } :=
    ⟨closure.body, entered, closure.body.mem_own_self⟩
  apply Keeps.settle lawful entered
  exact evaluators.body whole closure.body.mem_constructs_self closure.form

/-- The value of a program. -/
theorem Evaluators.runProgram {globals scope : ScopeId} (lawful : policy.Lawful)
    (evaluators : policy.Evaluators evaluate)
    (executed : policy.executes program program (.ofProgram globals scope)) :
    policy.Keeps (policy.errors program) (fun _ => True)
      (Eval.runProgram evaluate program globals scope) :=
  .settle lawful executed (evaluators _ _ _ ⟨program, executed, program.mem_own_self⟩)

section

variable {site : Span}

/-- A requirement that is not met. -/
theorem Blames.refuse (blames : policy.Blames program frame site) (requirement : Requirement) :
    policy.Keeps (policy.errors program) (fun _ => True)
      (Eval.refuse frame site requirement) :=
  .fail blames rfl

/-- Writing a line, or clearing the lines, leaves the scripts as they are. -/
theorem Blames.write (blames : policy.Blames program frame site) (line : String) :
    policy.Keeps (policy.errors program) (fun _ => True)
      (Action.perform frame site (Host.writeLine line)) :=
  Keeps.perform blames fun _ _ => Host.writeLine_scripts

/-- Clearing what was written leaves the scripts as they are. -/
theorem Blames.clear (blames : policy.Blames program frame site) :
    policy.Keeps (policy.errors program) (fun _ => True) (Eval.clear frame site) := by
  have cleared : policy.Keeps (policy.errors program) (fun _ => True)
      (Action.perform frame site Host.clear) :=
    Keeps.perform blames fun _ _ => Host.clear_scripts
  apply Keeps.bind cleared
  intro _ _
  exact .pure trivial

/-- Printing a value. -/
theorem Blames.print (blames : policy.Blames program frame site) (value : Value) :
    policy.Keeps (policy.errors program) (fun _ => True) (Eval.print frame site value) := by
  apply Keeps.bind (Keeps.textOf value)
  intro text _
  apply Keeps.bind (blames.write text)
  intro _ _
  exact .pure trivial

/-- Reading an integer. -/
theorem Blames.inputInteger (blames : policy.Blames program frame site) :
    policy.Keeps (policy.errors program) (fun _ => True) (Eval.inputInteger frame site) := by
  have integers (lines : Nat) : policy.Keeps (policy.errors program) (fun _ => True)
      (Eval.readInteger frame site lines) := by
    -- The induction is on how many lines are left.
    induction lines with
    | zero => exact .cutOff
    | succ lines ih =>
      apply Keeps.bind (Keeps.readLine blames)
      intro line _
      split
      · exact .pure trivial
      · apply Keeps.bind (blames.write _)
        intro _ _
        exact ih
  apply Keeps.bind Keeps.linesLeft
  intro lines _
  apply Keeps.bind (integers (lines + 1))
  intro integer _
  exact .pure trivial

/-- A change of the elements of a list, with no value. -/
theorem Lawful.changeList (lawful : policy.Lawful) (list : ListId)
    (change : Array Value → Array Value) (value : Value) :
    policy.Keeps exits (fun _ => True) (do
      Action.change (Store.modifyList list change)
      return value) := by
  apply Keeps.bind (Keeps.change fun _ held => lawful.modifyList list change held)
  intro _ _
  exact .pure trivial

/-- Putting a value at the end of a list. -/
theorem Blames.append (lawful : policy.Lawful) (blames : policy.Blames program frame site)
    (target value : Value) :
    policy.Keeps (policy.errors program) (fun _ => True)
      (Eval.append frame site target value) := by
  unfold Eval.append
  split
  · exact lawful.changeList _ _ .null
  · exact blames.refuse .firstList

/-- Looking at the elements of a list. -/
theorem Keeps.elements (list : ListId) :
    policy.Keeps exits (fun _ => True) (Action.look (·.elements list)) :=
  .look fun _ _ => trivial

/-- Taking an element out of a list. -/
theorem Blames.pop (lawful : policy.Lawful) (blames : policy.Blames program frame site)
    (target index : Value) :
    policy.Keeps (policy.errors program) (fun _ => True) (Eval.pop frame site target index) := by
  unfold Eval.pop
  split
  · apply Keeps.bind (Keeps.elements _)
    intro elements _
    split
    · exact .fail blames rfl
    · exact lawful.changeList _ _ _
  · exact blames.refuse .secondNumber
  · exact blames.refuse .firstList

/-- Putting the elements of a list at the end of another one. -/
theorem Blames.extend (lawful : policy.Lawful) (blames : policy.Blames program frame site)
    (target other : Value) :
    policy.Keeps (policy.errors program) (fun _ => True)
      (Eval.extend frame site target other) := by
  unfold Eval.extend
  split
  · apply Keeps.bind (Keeps.elements _)
    intro extra _
    exact lawful.changeList _ _ .null
  · exact blames.refuse .secondList
  · exact blames.refuse .firstList

/-- Counting the elements of a list or the characters of a text. -/
theorem Blames.length (blames : policy.Blames program frame site) (value : Value) :
    policy.Keeps (policy.errors program) (fun _ => True) (Eval.length frame site value) := by
  unfold Eval.length
  split
  · apply Keeps.bind (Keeps.elements _)
    intro elements _
    exact .pure trivial
  · exact .pure trivial
  · exact blames.refuse .onlyList

/-- Running a script: an error of its program is told as one of the call. -/
theorem Evaluators.run (lawful : policy.Lawful) (evaluators : policy.Evaluators evaluate)
    (blames : policy.Blames program frame site) (value : Value) :
    policy.Keeps (policy.errors program) (fun _ => True)
      (Eval.run evaluate frame site value) := by
  unfold Eval.run
  split
  · rename_i name
    apply Keeps.bind (Keeps.load name)
    intro script loaded
    cases script with
    | error reason => exact .fail blames rfl
    | ok text =>
      apply Keeps.bind (Keeps.make fun _ held => lawful.enclose frame.program held)
      intro scope _
      cases parsed : ({ name, text } : Source).program with
      | error error => exact .fail blames rfl
      | ok script =>
        have executed := lawful.script frame.globals scope loaded parsed
        have run := evaluators.runProgram lawful executed
        apply Keeps.bind (run.mapExit fun error _ => blames _ rfl)
        intro _ _
        exact .pure trivial
  · exact blames.refuse .onlyText

/-- What a built-in function does where its errors may be told. -/
theorem Evaluators.builtin (lawful : policy.Lawful) (evaluators : policy.Evaluators evaluate)
    (blames : policy.Blames program frame site) {function : Builtin} {arguments : List Value}
    (fits : arguments.length = function.parameters.length) :
    policy.Keeps (policy.errors program) (fun _ => True)
      (Eval.builtin evaluate frame site function arguments) := by
  -- One case for each function.
  rw [Eval.builtin_eq_effect fits]
  cases function with
  | print => exact blames.print _
  | inputInt => exact blames.inputInteger
  | clear => exact blames.clear
  | isNumber | isText | isList | isFunction => exact .pure trivial
  | append => exact blames.append lawful _ _
  | pop => exact blames.pop lawful _ _
  | extend => exact blames.extend lawful _ _
  | length => exact blames.length _
  | run => exact evaluators.run lawful blames _
  | printRet =>
    apply Keeps.bind (Keeps.textOf _)
    intro text _
    exact .pure trivial
  | input =>
    apply Keeps.bind (Keeps.readLine blames)
    intro line _
    exact .pure trivial

end

/-- A wrong number of arguments is an ordinary cause. -/
theorem arityError_ordinary {function : String} {expected given : Nat} {cause : EvalError.Cause}
    (wrong : Eval.arityError function expected given = some cause) : cause.ordinary := by
  unfold Eval.arityError at wrong
  split at wrong
  · obtain rfl := Option.some.inj wrong
    rfl
  · split at wrong
    · obtain rfl := Option.some.inj wrong
      rfl
    · cases wrong

/-- A call of any value fails where it is made, or inside of the function that is called. -/
theorem Evaluators.callValue {site : Span} {callee : Node} {arguments : List Node}
    (lawful : policy.Lawful) (evaluators : policy.Evaluators evaluate)
    (evaluated : policy.Evaluates program (.call site callee arguments) frame) (function : Value)
    (given : List Value) :
    policy.Keeps (policy.errors program) (fun _ => True)
      (Eval.callValue Eval.builtin evaluate frame site function given) := by
  have blames : policy.Blames program frame site := evaluated.blames lawful
  unfold Eval.callValue
  split
  · rename_i place
    -- A function that is found in the store is one that the policy knows.
    have found : policy.Keeps (policy.errors program)
        (fun closure => ∀ known, closure = some known → policy.functions known)
        (Action.look (·.closure? place)) :=
      .look fun _ held _ present => lawful.closure? held present
    apply Keeps.bind found
    intro closure known
    cases closure with
    | none => exact .fail blames rfl
    | some closure =>
      dsimp only
      split
      · rename_i cause wrong
        exact .fail blames (arityError_ordinary wrong)
      · exact evaluators.callClosure lawful evaluated (known closure rfl)
  · rename_i function
    split
    · rename_i cause wrong
      exact .fail blames (arityError_ordinary wrong)
    · rename_i fits
      obtain ⟨outer, executed, inside⟩ := evaluated
      exact evaluators.builtin lawful
        (fun _ ordinary => lawful.builtinFails function executed inside ordinary)
        (Eval.length_of_arityError fits)
  · exact .fail blames rfl

/-- A call evaluates the function first, and then the arguments. -/
theorem Evaluators.call {site : Span} {callee : Node} {arguments : List Node}
    (lawful : policy.Lawful) (evaluators : policy.Evaluators evaluate)
    (evaluated : policy.Evaluates program (.call site callee arguments) frame) :
    policy.Keeps (policy.Exits program (.call site callee arguments)) (fun _ => True)
      (Eval.call Eval.builtin evaluate frame site callee arguments) := by
  have callees : callee ∈ (Node.call site callee arguments).exposed := by
    simp [Node.exposed, Node.constructs]
  have given : arguments ⊆ (Node.call site callee arguments).exposed := by
    intro argument member
    simp [Node.exposed, Node.constructs, Node.mem_constructsOfAll member]
  apply Keeps.bind (evaluators.part evaluated callees)
  intro function _
  apply Keeps.bind (evaluators.values evaluated given)
  intro row _
  exact (evaluators.callValue lawful evaluated function row).lift

/-- The end of a function with the value of a construct, or with none. -/
theorem Evaluators.returning {span : Span} {value : Option Node}
    (evaluators : policy.Evaluators evaluate)
    (evaluated : policy.Evaluates program (.returning span value) frame) :
    policy.Keeps (policy.Exits program (.returning span value)) (fun _ => True)
      (Eval.returning evaluate frame value) := by
  cases value with
  | none => exact .leave (.returned .null)
  | some inner =>
    have exposed : inner ∈ (Node.returning span (some inner)).exposed := by
      simp [Node.exposed, Node.constructs, Node.constructsOfOption]
    apply Keeps.bind (evaluators.part evaluated exposed)
    intro value _
    exact .leave (.returned value)

/-- A construct keeps to the rules when the constructs in it do. -/
theorem Evaluators.construct (lawful : policy.Lawful) (evaluators : policy.Evaluators evaluate)
    (rounds : Nat) : policy.Evaluators (Eval.construct Eval.builtin evaluate rounds) := by
  -- One case for each kind of construct.
  intro program node frame evaluated
  cases node with
  | int | float | text => exact .pure trivial
  | list span items | sequence span items =>
    refine evaluators.list lawful evaluated fun item member => ?_
    simp [Node.exposed, Node.constructs, Node.mem_constructsOfAll member]
  | reference span name => exact (evaluated.reference lawful).lift
  | assign span name value =>
    refine evaluators.assign lawful evaluated ?_ name
    simp [Node.exposed, Node.constructs]
  | binary span operator left right => exact evaluators.binary lawful evaluated
  | unary span operator operand => exact evaluators.unary lawful evaluated
  | conditional span choices =>
    exact evaluators.choices evaluated choices (List.subset_cons_self _ _)
  | forLoop span name first bound step body form =>
    exact evaluators.forLoop lawful evaluated rounds
  | whileLoop span condition body form => exact evaluators.whileLoop lawful evaluated rounds
  | function span name parameters body form => exact evaluated.function lawful
  | call site callee arguments => exact evaluators.call lawful evaluated
  | returning span value => exact evaluators.returning evaluated
  | continuing span =>
    exact .leave (.continued (by simp [Node.loose, Node.exposed, Node.constructs, Node.raises?]))
  | breaking span =>
    exact .leave (.broke (by simp [Node.loose, Node.exposed, Node.constructs, Node.raises?]))

end Policy

end Scriptlet
