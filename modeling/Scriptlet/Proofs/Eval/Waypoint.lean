import Scriptlet.Proofs.Eval.Compliance
import Scriptlet.Proofs.Eval.Invariant
import Scriptlet.Proofs.Session.Sound

/-! The states that programs come through, and what lawful rules say of them. -/

namespace Scriptlet

/--
A step that is stopped where the state meets a condition, before it or after it. No construct takes
the error that stops it, so nothing is done from there on.
-/
def Action.stopIf (stops : State → Bool) (frame : Frame) (span : Span)
    (step : Action Exit Value) : Action Exit Value := fun state =>
  let stopped := Exit.failed (frame.error (.operation .illegal) span)
  if stops state then .exit stopped state
  else
    match step state with
    | .value value state => if stops state then .exit stopped state else .value value state
    | .exit cause state => if stops state then .exit stopped state else .exit cause state
    | .unfinished => .unfinished

/-- Evaluates a construct up to the first construct that begins or ends where a condition is met. -/
def evaluateUntil (stops : State → Bool) : Nat → Evaluator
  | 0 => fun _ _ => Action.cutOff
  | depth + 1 => fun node frame => Action.stopIf stops frame node.span
    (Eval.construct Eval.builtin (evaluateUntil stops depth) depth node frame)

/-- An evaluation that is never stopped is an evaluation. -/
theorem evaluateUntil_never (depth : Nat) :
    evaluateUntil (fun _ => false) depth = evaluate depth := by
  -- The induction is on the depth.
  induction depth with
  | zero => rfl
  | succ depth ih =>
    funext node frame state
    simp only [evaluateUntil, ih, Action.stopIf, Bool.false_eq_true, ↓reduceIte]
    show _ = Eval.construct Eval.builtin (evaluate depth) depth node frame state
    cases Eval.construct Eval.builtin (evaluate depth) depth node frame state <;> rfl

/--
A program comes through a state in a scope if a construct begins or ends there, at any depth, or if
the program ends there.
-/
def Machine.ComesThrough (machine : Machine) (source : Source) (scope : ScopeId) (state : State) :
    Prop :=
  ∃ program stops reach, source.program = .ok program ∧
    (Eval.runProgram (evaluateUntil stops reach) program machine.globals scope
      machine.state).after? = some state

/-- The run of a program ends in the state that its evaluation leaves behind. -/
theorem Machine.after?_of_runIn {machine next : Machine} {reach : Nat} {source : Source}
    {scope : ScopeId} {program : Node} {result : Except ProgramError Value}
    (parsed : source.program = .ok program)
    (finished : machine.runIn reach source scope = some (result, next)) :
    next.globals = machine.globals ∧
      (evaluate reach program (.ofProgram machine.globals scope) machine.state).after? =
        some next.state := by
  rw [Machine.runIn_of_program parsed] at finished
  unfold Eval.runProgram at finished
  rw [← Action.after?_settle (.ofProgram machine.globals scope)]
  generalize Action.settle (.ofProgram machine.globals scope) _ machine.state = outcome
    at finished ⊢
  cases outcome <;> cases finished <;> exact ⟨rfl, rfl⟩

/-- A program comes through the state that it ends with. -/
theorem Machine.comesThrough_of_ended {machine next : Machine} {reach : Nat} {source : Source}
    {scope : ScopeId} {program : Node} {result : Except ProgramError Value}
    (parsed : source.program = .ok program)
    (finished : machine.runIn reach source scope = some (result, next)) :
    machine.ComesThrough source scope next.state := by
  refine ⟨program, fun _ => false, reach, parsed, ?_⟩
  rw [evaluateUntil_never, Eval.runProgram, Action.after?_settle]
  exact (Machine.after?_of_runIn parsed finished).2

namespace Policy

variable {policy : Policy}

/-- What an outcome leaves behind is one of the states that the rules speak of. -/
theorem Outcomes.after? {ε α : Type} {exits : ε → Prop} {results : α → Prop}
    {outcome : Outcome ε α} {state : State} (outcomes : policy.Outcomes exits results outcome)
    (after : outcome.after? = some state) : policy.States state := by
  cases outcomes with
  | value fine states => exact Option.some.inj after ▸ states
  | exit fine states => exact Option.some.inj after ▸ states
  | unfinished => cases after

/-- Evaluations keep to the rules wherever they are stopped. -/
theorem Lawful.evaluateUntil (lawful : policy.Lawful) (stops : State → Bool) (depth : Nat) :
    policy.Evaluators (evaluateUntil stops depth) := by
  -- The induction is on the depth.
  induction depth with
  | zero => exact fun _ _ _ _ _ _ => .unfinished
  | succ depth ih =>
    intro program node frame evaluated state states
    have stopped : policy.Exits program node
        (.failed (frame.error (.operation .illegal) node.span)) :=
      .failed (evaluated.blames lawful _ rfl)
    have ended := ih.construct lawful depth program node frame evaluated state states
    simp only [Scriptlet.evaluateUntil, Action.stopIf]
    split
    · exact .exit stopped states
    · generalize Eval.construct Eval.builtin _ depth node frame state = outcome at ended ⊢
      cases ended with
      | unfinished => exact .unfinished
      | value fine after =>
        dsimp only
        split
        · exact .exit stopped after
        · exact .value fine after
      | exit fine after =>
        dsimp only
        split
        · exact .exit stopped after
        · exact .exit fine after

/-- Evaluations keep to the rules. -/
theorem Lawful.evaluate (lawful : policy.Lawful) (depth : Nat) :
    policy.Evaluators (evaluate depth) :=
  evaluateUntil_never depth ▸ lawful.evaluateUntil (fun _ => false) depth

/-- All states that a program comes through are states that the rules speak of. -/
theorem Lawful.comesThrough {machine : Machine} {source : Source} {scope : ScopeId} {state : State}
    (lawful : policy.Lawful) (states : policy.States machine.state)
    (executes : ∀ program, source.program = .ok program →
      policy.executes program program (.ofProgram machine.globals scope))
    (passed : machine.ComesThrough source scope state) : policy.States state := by
  obtain ⟨program, stops, reach, parsed, after⟩ := passed
  have kept := (lawful.evaluateUntil stops reach).runProgram lawful (executes program parsed)
  exact (kept machine.state states).after? after

end Policy

end Scriptlet
