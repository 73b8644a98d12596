import Scriptlet.Proofs.Eval.Trail

/-!
Evaluations that are stopped at one moment, beside the same ones that are stopped later: whatever a
construct does, it makes scopes inside of scopes that are there.
-/

namespace Scriptlet

/-- A construct that does not begin where it is stopped leaves behind what it leaves otherwise. -/
theorem Action.after?_stopIf {stops : State → Bool} {state : State} (frame : Frame) (span : Span)
    (step : Action Exit Value) (goesOn : ¬ stops state) :
    (Action.stopIf stops frame span step state).after? = (step state).after? := by
  -- Where it is stopped behind the construct, that is in the state that the construct leaves.
  unfold Action.stopIf
  rw [if_neg goesOn]
  cases step state with
  | value | exit =>
    dsimp only
    split <;> rfl
  | unfinished => rfl

namespace Trailing

variable {evaluate evaluate' : Evaluator} {frame : Frame} {base : Store} {globals : ScopeId}

section Constructs

variable (trailing : Trailing globals evaluate evaluate') (stands : frame.Stands base globals)

include trailing stands

/-- The values of constructs. -/
theorem values (nodes : List Node) :
    Action.Trail Exit.Fails base (Eval.values evaluate frame nodes)
      (Eval.values evaluate' frame nodes) := by
  -- The induction goes along the constructs.
  induction nodes with
  | nil => exact .pure []
  | cons node rest ih => exact (trailing stands node).bind fun _ => ih.bind fun _ => .pure _

/-- A list of the values of constructs. -/
theorem list (nodes : List Node) :
    Action.Trail Exit.Fails base (Eval.list evaluate frame nodes)
      (Eval.list evaluate' frame nodes) :=
  (trailing.values stands nodes).bind fun _ => .makeList _

/-- A construct that has to be a number. -/
theorem number (node : Node) :
    Action.Trail Exit.Fails base (Eval.number evaluate frame node)
      (Eval.number evaluate' frame node) := by
  refine (trailing stands node).bind fun value => ?_
  cases value with
  | number number => exact .pure number
  | text | list | closure | builtin => exact .lift (.fail frame _ _)

/-- A definition. -/
theorem assign (name : String) (node : Node) :
    Action.Trail Exit.Fails base (Eval.assign evaluate frame name node)
      (Eval.assign evaluate' frame name node) := by
  refine (trailing stands node).bind fun value => ?_
  refine (Action.Trail.make fun store _ => .copy value).bind fun copy => ?_
  exact (Action.Trail.define frame.scope name copy).bind fun _ => .pure copy

/-- An operator on two operands. -/
theorem binary (span : Span) (operator : BinaryOperator) (left right : Node) :
    Action.Trail Exit.Fails base (Eval.binary evaluate frame span operator left right)
      (Eval.binary evaluate' frame span operator left right) := by
  refine (trailing stands left).bind fun one => (trailing stands right).bind fun other => ?_
  refine (Action.Trail.memory).bind fun memory => (Action.Trail.look _).bind fun result => ?_
  cases result with
  | ok result => exact .yield result
  | error fault => exact .lift (.fail frame _ _)

/-- An operator on one operand. -/
theorem unary (span : Span) (operator : UnaryOperator) (operand : Node) :
    Action.Trail Exit.Fails base (Eval.unary evaluate frame span operator operand)
      (Eval.unary evaluate' frame span operator operand) := by
  refine (trailing stands operand).bind fun value => (Action.Trail.look _).bind fun result => ?_
  cases result with
  | ok result => exact .pure result
  | error fault => exact .lift (.fail frame _ _)

/-- A body. -/
theorem body (node : Node) (form : BodyForm) :
    Action.Trail Exit.Fails base (Eval.body evaluate frame node form)
      (Eval.body evaluate' frame node form) :=
  (trailing stands node).bind fun _ => .pure _

/-- The first body whose condition is true. -/
theorem choices (choices : Choices) :
    Action.Trail Exit.Fails base (Eval.choices evaluate frame choices)
      (Eval.choices evaluate' frame choices) := by
  cases choices with
  | none => exact .pure _
  | otherwise node form => exact trailing.body stands node form
  | test condition node form rest =>
    -- Each further condition comes behind the bodies before it.
    refine (trailing stands condition).bind fun value => (Action.Trail.look _).bind fun truth => ?_
    split
    · exact trailing.body stands node form
    · exact choices rest

end Constructs

/-- The values of a loop. -/
theorem collect (form : BodyForm) (values : Array Value) :
    Action.Trail Exit.Fails base (form.collect values) (form.collect values) := by
  -- Only loops on one line make a list.
  cases form with
  | inline => exact .makeList values
  | block => exact .pure _

/-- The rounds of a counted loop. -/
theorem countedRounds {round round' : Action Exit Action.Round}
    (rounds : Action.Trail Exit.Fails base round round') (counting : Counting) (name : String)
    (form : BodyForm) (times : Nat) (counter : Number) (values : Array Value) :
    Action.Trail Exit.Fails base
      (Eval.countedRounds counting (fun counter => Store.define frame.scope name (.number counter))
        round form times counter values)
      (Eval.countedRounds counting (fun counter => Store.define frame.scope name (.number counter))
        round' form times counter values) := by
  -- The induction is on how many rounds there may still be.
  induction times generalizing counter values with
  | zero => exact .cutOff
  | succ times ih =>
    rw [Eval.countedRounds_succ, Eval.countedRounds_succ]
    split
    · refine (Action.Trail.define frame.scope name _).bind fun _ => rounds.bind fun ended => ?_
      cases ended with
      | next yielded => exact ih _ _
      | last => exact collect form values
    · exact collect form values

/-- The rounds of a conditional loop. -/
theorem conditionalRounds {condition condition' : Action Exit Value}
    {round round' : Action Exit Action.Round}
    (tests : Action.Trail Exit.Fails base condition condition')
    (rounds : Action.Trail Exit.Fails base round round') (form : BodyForm) (times : Nat)
    (values : Array Value) :
    Action.Trail Exit.Fails base (Eval.conditionalRounds condition round form times values)
      (Eval.conditionalRounds condition' round' form times values) := by
  -- The induction is on how many rounds there may still be.
  induction times generalizing values with
  | zero => exact .cutOff
  | succ times ih =>
    rw [Eval.conditionalRounds_succ, Eval.conditionalRounds_succ]
    refine tests.bind fun value => (Action.Trail.look _).bind fun truth => ?_
    split
    · refine rounds.bind fun ended => ?_
      cases ended with
      | next yielded => exact ih _
      | last => exact collect form values
    · exact collect form values

/-- A variable. -/
theorem reference (span : Span) (name : String) :
    Action.Trail (fun _ => True) base (Eval.reference frame span name)
      (Eval.reference frame span name) := by
  refine (Action.Trail.look _).bind fun value => ?_
  cases value with
  | none => exact .fail frame _ span
  | some value => exact .pure value

/-- A new function is one of the scope of its frame. -/
theorem function (stands : frame.Stands base globals) (name : Option String)
    (parameters : List String) (body : Node) (form : BodyForm) :
    Action.Trail Exit.Fails base (Eval.function frame name parameters body form)
      (Eval.function frame name parameters body form) := by
  -- The scope of the frame is still there when the function is made.
  refine (Action.Trail.make fun store from_ => ?_).bind fun closure => ?_
  · exact .single (.addClosure (from_.has stands.scope))
  · cases name with
    | none => exact .pure _
    | some name => exact (Action.Trail.define frame.scope name _).bind fun _ => .pure _

/-- Binding parameters makes lists and defines variables. -/
theorem leads_bindParameters (scope : ScopeId) (given : List (String × Value)) (store : Store) :
    store.Leads (Eval.bindParameters scope given store) := by
  -- The induction goes along the parameters.
  induction given generalizing store with
  | nil => exact .refl
  | cons first rest ih =>
    obtain ⟨name, value⟩ := first
    have copied : store.Leads (store.copy value).2 := .copy value
    exact (copied.tail (.define _ scope name _)).trans (ih _)

/-- Putting a value at the end of a list. -/
theorem append (site : Span) (target value : Value) :
    Action.Trail (fun _ => True) base (Eval.append frame site target value)
      (Eval.append frame site target value) := by
  unfold Eval.append
  split
  · exact (Action.Trail.modifyList _ _).bind fun _ => .pure _
  · exact .fail frame _ site

/-- Taking an element out of a list. -/
theorem pop (site : Span) (target index : Value) :
    Action.Trail (fun _ => True) base (Eval.pop frame site target index)
      (Eval.pop frame site target index) := by
  unfold Eval.pop
  split
  · refine (Action.Trail.look _).bind fun elements => ?_
    split
    · exact .fail frame _ site
    · exact (Action.Trail.modifyList _ _).bind fun _ => .pure _
  · exact .fail frame _ site
  · exact .fail frame _ site

/-- Putting the elements of a list at the end of another one. -/
theorem extend (site : Span) (target other : Value) :
    Action.Trail (fun _ => True) base (Eval.extend frame site target other)
      (Eval.extend frame site target other) := by
  unfold Eval.extend
  split
  · refine (Action.Trail.look _).bind fun extra => ?_
    exact (Action.Trail.modifyList _ _).bind fun _ => .pure _
  · exact .fail frame _ site
  · exact .fail frame _ site

section Calls

variable (trailing : Trailing globals evaluate evaluate')

include trailing

/-- A call of a function runs in a new scope inside of the one that the function was made in. -/
theorem callClosure (stands : frame.Stands base globals) {closure : Closure}
    (has : base.Has closure.scope) (site : Span) (arguments : List Value) :
    Action.Trail (fun _ => True) base (Eval.callClosure evaluate frame site closure arguments)
      (Eval.callClosure evaluate' frame site closure arguments) := by
  -- The frame of the body stands on the store with the new scope.
  refine .enclose_bind has fun scope store leads there => ?_
  refine (Action.Trail.change fun store _ => leads_bindParameters scope _ store).bind fun _ => ?_
  have inner : Frame.Stands { frame.enter closure.label site with scope } store globals :=
    ⟨leads.nested stands.nested, there, leads.has stands.program⟩
  exact .settle _ (trailing.body inner closure.body closure.form)

/-- The value of a program. -/
theorem runProgram {scope : ScopeId} (nested : base.Nested globals) (has : base.Has scope)
    (program : Node) (root : ScopeId) :
    Action.Trail (fun _ => True) base (Eval.runProgram evaluate program root scope)
      (Eval.runProgram evaluate' program root scope) :=
  .settle _ (trailing (.ofProgram nested has root) program)

variable (stands : frame.Stands base globals)

include stands

/-- A script runs in a new scope inside of the one of the caller's program. -/
theorem runScript (site : Span) (name text : String) :
    Action.Trail (fun _ => True) base (Eval.runScript evaluate frame site name text)
      (Eval.runScript evaluate' frame site name text) := by
  -- The script is a program of its own on the store with the new scope.
  refine .enclose_bind stands.program fun scope store leads there => ?_
  cases ({ name, text } : Source).program with
  | error error => exact .fail frame _ site
  | ok program =>
    have runs := trailing.runProgram (leads.nested stands.nested) there program frame.globals
    exact (runs.mapExit fun _ _ => trivial).bind fun _ => .pure _

/-- Loading a script and running it. -/
theorem run (site : Span) (value : Value) :
    Action.Trail (fun _ => True) base (Eval.run evaluate frame site value)
      (Eval.run evaluate' frame site value) := by
  cases value with
  | text name =>
    have loads : Eval.KeepsStore (Action.load name : Action EvalError (Except String String)) :=
      fun _ _ ended => Option.some.inj ended ▸ rfl
    refine (Action.Trail.of_keepsStore loads).bind fun script => ?_
    cases script with
    | error reason => exact .fail frame _ site
    | ok text => exact trailing.runScript stands site name text
  | number | list | closure | builtin => exact .fail frame _ site

/-- What a built-in function does. -/
theorem builtin (site : Span) {function : Builtin} {arguments : List Value}
    (fits : arguments.length = function.parameters.length) :
    Action.Trail (fun _ => True) base (Eval.builtin evaluate frame site function arguments)
      (Eval.builtin evaluate' frame site function arguments) := by
  -- All but four functions leave the store as it is.
  rw [Eval.builtin_eq_effect fits, Eval.builtin_eq_effect fits]
  cases function with
  | print =>
    exact .of_keepsStore (.bind (.textOf _) fun _ => .bind (.perform _ _ _) fun _ => .pure _)
  | printRet => exact .of_keepsStore (.bind (.textOf _) fun _ => .pure _)
  | input => exact .of_keepsStore (.bind (.readLine _ _) fun _ => .pure _)
  | inputInt =>
    exact .of_keepsStore (.bind .linesLeft fun _ => .bind (.readInteger _ _ _) fun _ => .pure _)
  | clear => exact .of_keepsStore (.bind (.perform _ _ _) fun _ => .pure _)
  | isNumber | isText | isList | isFunction => exact .pure _
  | length => exact .of_keepsStore (Eval.keepsStore_length _)
  | run => exact trailing.run stands site _
  | append => exact append site _ _
  | pop => exact pop site _ _
  | extend => exact extend site _ _

/-- A call of any value. -/
theorem callValue (site : Span) (callee : Value) (arguments : List Value) :
    Action.Trail (fun _ => True) base
      (Eval.callValue Eval.builtin evaluate frame site callee arguments)
      (Eval.callValue Eval.builtin evaluate' frame site callee arguments) := by
  -- The scope of a function that is found is there, because functions are only made in such scopes.
  cases callee with
  | closure place =>
    refine .look_bind fun store leads => ?_
    cases found : store.closure? place with
    | none => exact .fail frame _ site
    | some closure =>
      dsimp only
      have stands := stands.mono leads
      split
      · exact .fail frame _ site
      · have has := stands.nested.closures place closure found
        exact trailing.callClosure stands has site arguments
  | builtin function =>
    simp only [Eval.callValue]
    split
    · exact .fail frame _ site
    · rename_i fits
      have entered : (frame.enter function.name site).Stands base globals :=
        ⟨stands.nested, stands.scope, stands.program⟩
      exact trailing.builtin entered site (Eval.length_of_arityError fits)
  | number | text | list => exact .fail frame _ site

/-- A call. -/
theorem call (site : Span) (callee : Node) (arguments : List Node) :
    Action.Trail Exit.Fails base (Eval.call Eval.builtin evaluate frame site callee arguments)
      (Eval.call Eval.builtin evaluate' frame site callee arguments) := by
  refine (trailing stands callee).bind fun function => ?_
  refine (trailing.values stands arguments).bind fun given => ?_
  exact .lift (trailing.callValue stands site function given)

/-- The end of a function. -/
theorem returning (value : Option Node) :
    Action.Trail Exit.Fails base (Eval.returning evaluate frame value)
      (Eval.returning evaluate' frame value) := by
  cases value with
  | none => exact .leave _
  | some node => exact (trailing stands node).bind fun _ => .leave _

/-- A counted loop. -/
theorem forLoop (times : Nat) (name : String) (first bound : Node) (step : Option Node)
    (node : Node) (form : BodyForm) :
    Action.Trail Exit.Fails base
      (Eval.forLoop evaluate frame times name first bound step node form)
      (Eval.forLoop evaluate' frame times name first bound step node form) := by
  refine (trailing.number stands first).bind fun start => ?_
  refine (trailing.number stands bound).bind fun last => ?_
  have steps : Action.Trail Exit.Fails base (Eval.stepOf evaluate frame step)
      (Eval.stepOf evaluate' frame step) := by
    cases step with
    | none => exact .pure _
    | some step => exact trailing.number stands step
  refine steps.bind fun step => ?_
  exact countedRounds (.round (trailing stands node)) _ name form times start #[]

/-- A construct goes on as the constructs in it do. -/
theorem construct (times : Nat) (node : Node) :
    Action.Trail Exit.Fails base (Eval.construct Eval.builtin evaluate times node frame)
      (Eval.construct Eval.builtin evaluate' times node frame) := by
  -- One case for each kind of construct.
  cases node with
  | int | float | text => exact .pure _
  | list span items | sequence span items => exact trailing.list stands items
  | reference span name => exact .lift (reference span name)
  | assign span name value => exact trailing.assign stands name value
  | binary span operator left right => exact trailing.binary stands span operator left right
  | unary span operator operand => exact trailing.unary stands span operator operand
  | conditional span options => exact trailing.choices stands options
  | forLoop span name first bound step body form =>
    exact trailing.forLoop stands times name first bound step body form
  | whileLoop span condition body form =>
    have rounds := Action.Trail.round (trailing stands body)
    exact conditionalRounds (trailing stands condition) rounds form times #[]
  | function span name parameters body form => exact function stands name parameters body form
  | call site callee arguments => exact trailing.call stands site callee arguments
  | returning span value => exact trailing.returning stands value
  | continuing span | breaking span => exact .leave _

end Calls

section Stopping

variable {stops stops' : State → Bool} (fewer : ∀ state, stops' state → stops state)

include fewer

/-- A construct that has ended, and is stopped there or not, less often in the second run. -/
theorem stopsBehind {outcome : Outcome Exit Value} {after : State} {stopped : Exit}
    (failed : stopped.Fails) (leads : base.Leads after.store)
    (ended : outcome.after? = some after) (trails : outcome.Trails Exit.Fails base outcome) :
    Outcome.Trails Exit.Fails base (if stops after then .exit stopped after else outcome)
      (if stops' after then .exit stopped after else outcome) := by
  -- Where only the first run is stopped, the second one has come no further yet.
  by_cases again : stops' after
  · rw [if_pos (fewer after again), if_pos again]
    exact .exit stopped leads
  · rw [if_neg again]
    split
    · refine .stopped failed leads fun last ended' => ?_
      rw [ended] at ended'
      exact Option.some.inj ended' ▸ .refl
    · exact trails

/-- A construct that is stopped before it and behind it, less often in the second run. -/
theorem stopIf {step step' : Action Exit Value} (frame : Frame) (span : Span)
    (trail : Action.Trail Exit.Fails base step step') :
    Action.Trail Exit.Fails base (Action.stopIf stops frame span step)
      (Action.stopIf stops' frame span step') := by
  -- The first run may be stopped before the construct, in it, or behind it.
  intro state from_
  have trails := trail state from_
  by_cases here' : stops' state
  · unfold Action.stopIf
    rw [if_pos (fewer state here'), if_pos here']
    exact .exit _ .refl
  · have same := Action.after?_stopIf frame span step' here'
    by_cases here : stops state
    · rw [Action.stopIf, if_pos here]
      exact .stopped trivial .refl fun last ended => trails.leads (same ▸ ended)
    · unfold Action.stopIf at same ⊢
      rw [if_neg here'] at same
      rw [if_neg here, if_neg here']
      generalize step state = outcome, step' state = outcome' at trails same ⊢
      cases trails with
      | value result leads => exact stopsBehind fewer trivial leads rfl (.value result leads)
      | exit cause leads => exact stopsBehind fewer trivial leads rfl (.exit cause leads)
      | unfinished => exact .unfinished
      | stopped failed leads goesOn =>
        dsimp only
        split
        · exact .stopped trivial leads fun last ended => goesOn last (same ▸ ended)
        · exact .stopped failed leads fun last ended => goesOn last (same ▸ ended)

end Stopping

/-- Evaluations that are stopped where one of more conditions is met trail those with fewer. -/
theorem evaluateUntil {stops stops' : State → Bool} (fewer : ∀ state, stops' state → stops state)
    (depth : Nat) :
    Trailing globals (evaluateUntil stops depth) (evaluateUntil stops' depth) := by
  -- The induction is on the depth.
  induction depth with
  | zero => exact fun _ _ => .cutOff
  | succ depth ih =>
    intro base frame stands node
    exact stopIf fewer frame node.span (ih.construct stands depth node)

end Trailing

end Scriptlet
