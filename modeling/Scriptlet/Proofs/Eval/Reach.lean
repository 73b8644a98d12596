import Scriptlet.Machine
import Scriptlet.Proofs.Eval.Invariant

/-! How far a run may reach: what has ended at some reach ends in the same way at every greater one. -/

namespace Scriptlet

variable {reach further : Nat} {node : Node} {frame : Frame} {state : State}

/-- Evaluation reaches as far with more depth and more rounds, and does the same on the way. -/
theorem evaluators_further (longer : reach ≤ further) :
    (Coupling.diagonal (fun _ => True) (fun _ _ => True) True).Evaluators (evaluate reach)
      (evaluate further) := by
  -- Nothing is required of the store, and the first evaluation may be cut off.
  have lawful : (Coupling.diagonal (fun _ => True) (fun _ _ => True) True).Lawful :=
    Coupling.diagonal_lawful Store.Invariant.always
  have libraries := lawful.builtins (Coupling.diagonal_allowsChanges fun _ _ _ _ => trivial)
  exact lawful.evaluateWithin libraries (.inr ⟨trivial, longer⟩)

/-- An evaluation that is not cut off is the same for every greater reach. -/
theorem evaluate_mono (longer : reach ≤ further)
    (finished : evaluate reach node frame state ≠ .unfinished) :
    evaluate further node frame state = evaluate reach node frame state := by
  -- The two evaluations are put beside each other.
  have alike := evaluators_further longer () _ node node frame frame
    (Node.Similar.refl (fun _ => rfl) node) (Coupling.diagonal_frames frame)
    (fun _ _ => trivial) fun _ _ => trivial
  have outcomes := alike () trivial state state ⟨⟨rfl, trivial⟩, rfl⟩
  exact (Coupling.diagonal_outcomes outcomes fun _ => finished).symm

/--
An evaluation that ends with an outcome: it does so at some reach, and hence at every greater one.
-/
def Node.Ends (node : Node) (frame : Frame) (state : State) (outcome : Outcome Exit Value) : Prop :=
  outcome ≠ .unfinished ∧ ∃ reach, evaluate reach node frame state = outcome

/-- An evaluation ends with its outcome at every reach from some one on. -/
theorem Node.Ends.from_ {outcome : Outcome Exit Value} (ends : node.Ends frame state outcome) :
    ∃ least, ∀ reach, least ≤ reach → evaluate reach node frame state = outcome := by
  obtain ⟨finished, least, rfl⟩ := ends
  exact ⟨least, fun reach longer => evaluate_mono longer finished⟩

/-- A program that has ended at some reach ends in the same way at every greater one. -/
theorem Machine.runIn_mono {machine : Machine} {source : Source} {scope : ScopeId}
    {result : Except ProgramError Value} {next : Machine} (longer : reach ≤ further)
    (ended : machine.runIn reach source scope = some (result, next)) :
    machine.runIn further source scope = some (result, next) := by
  -- Only the evaluation of the program depends on the reach.
  unfold Machine.runIn at ended ⊢
  cases parsed : source.program with
  | error error => simpa only [parsed] using ended
  | ok program =>
    simp only [parsed] at ended ⊢
    have same : Eval.runProgram (evaluate further) program machine.globals scope machine.state =
        Eval.runProgram (evaluate reach) program machine.globals scope machine.state := by
      unfold Eval.runProgram Action.settle
      rw [evaluate_mono longer]
      intro cutOff
      simp [Eval.runProgram, Action.settle, cutOff] at ended
    rw [same]
    exact ended

end Scriptlet
