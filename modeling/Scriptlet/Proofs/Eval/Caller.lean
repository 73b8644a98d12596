import Scriptlet.Proofs.Eval.Invariant

/-!
Calls do not see their callers: what a call does depends on the function, its arguments and the
program, but neither on the scope that it is made in nor on the calls that led there.
-/

namespace Scriptlet

/-- Calls on top of a chain, the innermost one first. -/
def CallChain.above (base : CallChain) (calls : List (String × Span)) : CallChain :=
  calls.foldr (fun (name, site) caller => .call name site caller) base

/-- The same error, after the same calls on top of two chains. -/
structure EvalError.SameAbove (base base' : CallChain) (error error' : EvalError) : Prop where
  cause : error.cause = error'.cause
  span : error.span = error'.span
  chain : ∃ calls, error.chain = base.above calls ∧ error'.chain = base'.above calls

/-- The same early exit; errors may tell of the same calls on top of two chains. -/
inductive Exit.SameAbove (base base' : CallChain) : Exit → Exit → Prop where
  | failed {error error' : EvalError} (same : error.SameAbove base base' error') :
    Exit.SameAbove base base' (.failed error) (.failed error')
  | returned (value : Value) : Exit.SameAbove base base' (.returned value) (.returned value)
  | broke (site : Span) : Exit.SameAbove base base' (.broke site) (.broke site)
  | continued (site : Span) : Exit.SameAbove base base' (.continued site) (.continued site)

/-- Outcomes with the same value and state, or with the same state and causes in a relation. -/
inductive Outcome.SameBut {ε ε' α : Type} (causes : ε → ε' → Prop) :
    Outcome ε α → Outcome ε' α → Prop where
  | value (result : α) (state : State) :
    Outcome.SameBut causes (.value result state) (.value result state)
  | exit {cause : ε} {cause' : ε'} (same : causes cause cause') (state : State) :
    Outcome.SameBut causes (.exit cause state) (.exit cause' state)
  | unfinished : Outcome.SameBut causes .unfinished .unfinished

/-- The name of a function and how many arguments it takes; other values cannot be called. -/
def Store.signature? (store : Store) : Value → Option (String × Nat)
  | .closure id =>
    (store.closure? id).map fun closure => (closure.label, closure.parameters.length)
  | .builtin function => some (function.name, function.parameters.length)
  | _ => none

/-- Two chains, and no others. -/
def CallChain.Are (base base' chain chain' : CallChain) : Prop :=
  chain = base ∧ chain' = base'

/-- Similar chains at the same places are the same calls on top of their roots. -/
theorem CallChain.Similar.above {base base' chain chain' : CallChain}
    (alike : chain.Similar (· = ·) (CallChain.Are base base') chain') :
    ∃ calls, chain = base.above calls ∧ chain' = base'.above calls := by
  -- The induction goes from the root to the innermost call.
  induction alike with
  | root roots => exact ⟨[], roots⟩
  | @call name site _ _ _ places callers ih =>
    obtain ⟨calls, rfl, rfl⟩ := ih
    obtain rfl := places
    exact ⟨(name, site) :: calls, rfl, rfl⟩

/-- Similar errors at the same places are the same, after the same calls. -/
theorem EvalError.Similar.sameAbove {base base' : CallChain} {error error' : EvalError}
    (alike : error.Similar (· = ·) (CallChain.Are base base') error') :
    error.SameAbove base base' error' :=
  ⟨alike.causes.eq, alike.places, alike.chains.above⟩

namespace Coupling

/-- A run beside itself, of whose stores nothing is required. -/
abbrev twin : Coupling := diagonal (fun _ => True) (fun _ _ => True) False

/-- A run beside itself goes on like itself. -/
theorem twin_lawful : twin.Lawful :=
  diagonal_lawful Store.Invariant.always

/-- The built-in functions do the same beside themselves. -/
theorem twin_libraries : twin.Libraries Eval.builtin Eval.builtin :=
  twin_lawful.builtins (diagonal_allowsChanges fun _ _ _ _ => trivial)

/-- Evaluation does the same beside itself. -/
theorem twin_evaluate (reach : Nat) : twin.Evaluators (evaluate reach) (evaluate reach) :=
  twin_lawful.evaluateWith twin_libraries reach

/-- Alike constructs do the same in corresponding frames, whatever they speak of. -/
theorem twin_evaluators (reach : Nat) (world : Unit) (roots : CallChain → CallChain → Prop)
    (node node' : Node) (frame frame' : Frame) (alike : node.Similar twin.spans node')
    (frames : twin.Frames world roots frame frame')
    (permitted : twin.Permits frame.scope node.targets) :
    twin.Steps world (twin.Exits roots) twin.Values (evaluate reach node frame)
      (evaluate reach node' frame') :=
  twin_evaluate reach world roots node node' frame frame' alike frames permitted
    fun _ _ => trivial

variable {base base' : CallChain}

/-- Exits of a run beside itself are the same, after the same calls. -/
theorem twin_exits {exit exit' : Exit}
    (alike : twin.Exits (CallChain.Are base base') () exit exit') :
    exit.SameAbove base base' exit' := by
  cases alike with
  | failed alike => exact .failed alike.sameAbove
  | returned alike =>
    obtain rfl := diagonal_values alike
    exact .returned _
  | broke places =>
    obtain rfl := places
    exact .broke _
  | continued places =>
    obtain rfl := places
    exact .continued _

/-- From one state, steps that go on alike beside themselves are the same but for their causes. -/
theorem twin_sameBut {ε ε' : Type} {exits : twin.World → ε → ε' → Prop} {causes : ε → ε' → Prop}
    {step : Action ε Value} {step' : Action ε' Value}
    (alike : twin.Steps () exits twin.Values step step')
    (told : ∀ later cause cause', exits later cause cause' → causes cause cause')
    (state : State) : (step state).SameBut causes (step' state) := by
  have ended := alike () trivial state state ⟨⟨rfl, trivial⟩, rfl⟩
  generalize step state = outcome, step' state = outcome' at ended
  cases ended with
  | @value later result result' after after' grown same states =>
    obtain rfl := diagonal_values same
    obtain rfl := diagonal_states states
    exact .value _ _
  | @exit later cause cause' after after' grown same states =>
    obtain rfl := diagonal_states states
    exact .exit (told _ _ _ same) _
  | unfinished => exact .unfinished
  | cut lax => exact lax.elim

end Coupling

namespace Eval

/-- Reading an integer does not depend on the scope. -/
theorem readInteger_within (frame : Frame) (scope : ScopeId) (site : Span) (lines : Nat) :
    readInteger { frame with scope } site lines = readInteger frame site lines := by
  -- Every line is read and rebuked in the same way.
  induction lines with
  | zero => rfl
  | succ lines ih =>
    simp only [readInteger, ih]
    rfl

/-- What is done with arguments depends on the program and on the calls, not on the scope. -/
theorem effect_within (evaluate : Evaluator) (frame : Frame) (scope : ScopeId) (site : Span)
    (function : Builtin) (arguments : List Value) :
    effect evaluate { frame with scope } site function arguments =
      effect evaluate frame site function arguments := by
  cases function with
  | inputInt => simp only [effect, inputInteger, readInteger_within]
  | _ => rfl

/-- What a built-in function does depends on the program and on the calls, not on the scope. -/
theorem builtin_within (evaluate : Evaluator) (frame : Frame) (scope : ScopeId) (site : Span)
    (function : Builtin) (arguments : List Value) :
    builtin evaluate { frame with scope } site function arguments =
      builtin evaluate frame site function arguments := by
  simp only [builtin, effect_within]
  rfl

/-- A call depends on the program and on the calls around it, not on the scope it is made in. -/
theorem callValue_within (evaluate : Evaluator) (frame : Frame) (scope : ScopeId) (site : Span)
    (callee : Value) (arguments : List Value) :
    callValue builtin evaluate { frame with scope } site callee arguments =
      callValue builtin evaluate frame site callee arguments := by
  cases callee with
  | builtin function =>
    have entered : builtin evaluate (Frame.enter { frame with scope } function.name site) site
        function arguments =
          builtin evaluate (frame.enter function.name site) site function arguments :=
      builtin_within evaluate (frame.enter function.name site) scope site function arguments
    simp only [callValue, entered]
    rfl
  | _ => rfl

variable {reach : Nat} {frame : Frame} {site : Span} {callee : Value} {arguments : List Value}
  {name : String} {state : State} {globals : ScopeId} {chain : CallChain}

/-- A call of a function does the same on top of other calls. -/
theorem callValue_sameAbove
    (known : state.store.signature? callee = some (name, arguments.length)) :
    (callValue builtin (evaluate reach) frame site callee arguments state).SameBut
      (EvalError.SameAbove (.call name site frame.chain) (.call name site chain))
      (callValue builtin (evaluate reach) { frame with globals, chain } site callee arguments
        state) := by
  -- Both calls are put beside each other once they are entered.
  have frames : Coupling.twin.Frames ()
      (CallChain.Are (.call name site frame.chain) (.call name site chain))
      (frame.enter name site) (Frame.enter { frame with globals, chain } name site) :=
    ⟨rfl, rfl, .root ⟨rfl, rfl⟩⟩
  have rows : Coupling.twin.Rows () arguments arguments := Coupling.diagonal_rows_refl arguments
  cases callee with
  | number number => cases known
  | text text => cases known
  | list list => cases known
  | builtin function =>
    simp only [Store.signature?, Option.some.injEq, Prod.mk.injEq] at known
    obtain ⟨rfl, counts⟩ := known
    simp only [callValue, counts, arityError_self]
    have steps := Coupling.twin_libraries _ _ (Coupling.twin_evaluate reach) () _ _ _ site site
      function _ _ frames rfl counts.symm rows
    exact Coupling.twin_sameBut steps (fun _ _ _ same => same.sameAbove) state
  | closure id =>
    simp only [Store.signature?, Option.map_eq_some_iff, Prod.mk.injEq] at known
    obtain ⟨closure, found, rfl, counts⟩ := known
    simp only [callValue, Action.bind_apply, Action.look_apply, found, counts, arityError_self]
    have steps := (Coupling.twin_evaluate reach).callEntered Coupling.twin_lawful
      (Coupling.diagonal_functions_refl closure) (fun _ _ => trivial) frames rows
    exact Coupling.twin_sameBut steps (fun _ _ _ same => same.sameAbove) state

end Eval

/--
Calls do not see their callers: a function that is called with as many arguments as it takes does
the same in any two frames of one program, whatever their scopes and the calls around them are, and
an error tells of the same calls down to that of the function. And what any construct does depends
on the calls around it only as far as errors tell of them.
-/
theorem calls_ignore_callers (reach : Nat) (state : State) :
    (∀ (frame frame' : Frame) (site : Span) (callee : Value) (arguments : List Value)
      (name : String), frame.program = frame'.program →
      state.store.signature? callee = some (name, arguments.length) →
        (Eval.callValue Eval.builtin (evaluate reach) frame site callee arguments state).SameBut
          (EvalError.SameAbove (.call name site frame.chain) (.call name site frame'.chain))
          (Eval.callValue Eval.builtin (evaluate reach) frame' site callee arguments state)) ∧
      ∀ (node : Node) (frame : Frame) (chain : CallChain),
        (evaluate reach node frame state).SameBut (Exit.SameAbove frame.chain chain)
          (evaluate reach node { frame with chain } state) := by
  constructor
  · intro frame frame' site callee arguments name programs known
    -- The second call is made in the scope of the first one, which makes no difference.
    have within := Eval.callValue_within (evaluate reach) frame' frame.scope site callee arguments
    rw [← within, ← programs]
    exact Eval.callValue_sameAbove known
  · intro node frame chain
    have frames : Coupling.twin.Frames () (CallChain.Are frame.chain chain) frame
        { frame with chain } := ⟨rfl, rfl, .root ⟨rfl, rfl⟩⟩
    have steps := Coupling.twin_evaluators reach () _ node node frame _
      (Node.Similar.refl (fun _ => rfl) node) frames fun _ _ => trivial
    exact Coupling.twin_sameBut steps (fun _ _ _ => Coupling.twin_exits) state

/-- A state with a function `f` that runs a script, and a scope in which `x` is set. -/
def State.delegating : State :=
  let store := (Store.empty.addScope none).2.define ⟨0⟩ "RUN" (.builtin .run)
  let store := (store.enclose ⟨0⟩).2.define ⟨1⟩ "x" (.text "local")
  let body : Node := .call default (.reference default "RUN") [.text default "s"]
  { store := (store.addClosure
      { name := some "f", parameters := [], body, form := .inline, scope := ⟨0⟩ }).2
    host := Host.prepared [] [("s", "x")] .gibibyte .none }

/-- The script fails: from neither frame does it see the `x` of the scope that `f` is called in. -/
theorem calls_ignore_callers_delegating :
    let frame : Frame := { globals := ⟨0⟩, program := ⟨0⟩, scope := ⟨1⟩, chain := .program }
    let frame' : Frame :=
      { globals := ⟨0⟩, program := ⟨0⟩, scope := ⟨0⟩, chain := .call "g" default .program }
    let call (frame : Frame) := Eval.callValue Eval.builtin (evaluate 9) frame default
      (.closure ⟨0⟩) [] State.delegating
    State.delegating.store.signature? (.closure ⟨0⟩) = some ("f", 0) ∧
      ∃ name report error error' after, error.cause = .scriptFailed name report ∧
        call frame = .exit error after ∧ call frame' = .exit error' after ∧
        error.SameAbove (.call "f" default frame.chain) (.call "f" default frame'.chain)
          error' := by
  intro frame frame' call
  have known : State.delegating.store.signature? (.closure ⟨0⟩) = some ("f", 0) := rfl
  have failed : (call frame matches .exit ⟨.scriptFailed _ _, _, _⟩ _) = true := by decide +kernel
  have same : (call frame).SameBut _ (call frame') :=
    (calls_ignore_callers 9 State.delegating).1 frame frame' default (.closure ⟨0⟩) [] "f" rfl known
  refine ⟨known, ?_⟩
  generalize call frame = outcome, call frame' = outcome' at failed same
  cases same with
  | value result state => cases failed
  | unfinished => cases failed
  | @exit error error' same state =>
    obtain ⟨cause, span, chain⟩ := error
    cases cause with
    | scriptFailed name report => exact ⟨name, report, _, _, state, rfl, rfl, rfl, same⟩
    | _ => cases failed

end Scriptlet
