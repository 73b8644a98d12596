import Scriptlet.Proofs.Eval.FrameLaw
import Scriptlet.Proofs.Eval.Input
import Scriptlet.Proofs.Session.Joined
import Scriptlet.Proofs.Store.Access

/-! Programs that fail: nothing is undone of what they did before. -/

namespace Scriptlet

/-- A variable that a scope has stays there, whatever value it is given. -/
theorem Store.bound_invariant (place : ScopeId) (name : String) :
    Store.Invariant (fun store => (store.binding? place name).isSome) fun _ _ => True where
  define := by
    intro store scope other value held _
    by_cases differs : place ≠ scope ∨ name ≠ other
    · rwa [binding?_define_of_ne differs]
    · obtain ⟨rfl, rfl⟩ : place = scope ∧ name = other := by
        simpa only [not_or, not_not] using differs
      obtain ⟨before, bound⟩ := Option.isSome_iff_exists.mp held
      rw [binding?_define_self, if_pos (present_of_binding? bound), Option.isSome_some]
  addList := fun _ held => held
  addClosure := fun _ held => held
  enclose := by
    intro store scope held
    refine ⟨?_, fun _ => trivial⟩
    rwa [enclose, binding?_addScope]

namespace Eval

/-- Constructs in a row are left early at one of them, and all those in front of it have values. -/
theorem values_exit {evaluate : Evaluator} {frame : Frame} {nodes : List Node} {cause : Exit}
    {state after : State} (left : values evaluate frame nodes state = .exit cause after) :
    ∃ front node rest row before, nodes = front ++ node :: rest ∧
      values evaluate frame front state = .value row before ∧
      evaluate node frame before = .exit cause after := by
  -- The induction goes along the constructs up to the one that is left.
  induction nodes generalizing state with
  | nil => cases left
  | cons node rest ih =>
    simp only [values, Action.bind_apply] at left
    cases first : evaluate node frame state with
    | unfinished =>
      rw [first] at left
      cases left
    | exit reason middle =>
      rw [first] at left
      cases left
      exact ⟨[], node, rest, [], state, rfl, rfl, first⟩
    | value value middle =>
      simp only [first] at left
      cases others : values evaluate frame rest middle with
      | unfinished =>
        rw [others] at left
        cases left
      | value row last =>
        rw [others] at left
        cases left
      | exit reason last =>
        rw [others] at left
        cases left
        obtain ⟨front, failing, behind, row, before, rfl, fronts, failed⟩ := ih others
        refine ⟨node :: front, failing, behind, value :: row, before, rfl, ?_, failed⟩
        simp only [values, Action.bind_apply, first, fronts, Action.pure_apply]

end Eval

namespace Machine

/--
What a program leaves behind that fails: all as it was if its text is no program. If it is one, then
the bindings are kept that were made before the statement that fails, except what that statement
gave another value before it failed; and all that was bound stays bound.
-/
inductive FailsKeeping (source : Source) (scope : ScopeId) (machine : Machine) : State → Prop where
  | unread {error : SyntaxError} (malformed : source.program = .error error) :
    FailsKeeping source scope machine machine.state
  | stopped {reach : Nat} {span : Span} {front rest : List Node} {statement : Node}
    {row : List Value} {before after : State} {cause : Exit}
    (read : source.program = .ok (.sequence span (front ++ statement :: rest)))
    (fronts : Eval.values (evaluate reach) (.ofProgram machine.globals scope) front machine.state =
      .value row before)
    (failed : evaluate reach statement (.ofProgram machine.globals scope) before =
      .exit cause after)
    (kept : before.store.KeepsScopesBut scope statement.targets after.store)
    (bound : ∀ place name, (before.store.binding? place name).isSome →
      (after.store.binding? place name).isSome) :
    FailsKeeping source scope machine after

variable {machine next : Machine} {reach : Nat} {source : Source} {scope : ScopeId}
  {error : ProgramError}

/-- A program that fails keeps the bindings made before. -/
theorem runIn_failsKeeping (failed : machine.runIn reach source scope = some (.error error, next)) :
    machine.FailsKeeping source scope next.state := by
  cases parsed : source.program with
  | error malformed =>
    simp only [runIn, parsed, Option.some.injEq, Prod.mk.injEq] at failed
    obtain ⟨-, rfl⟩ := failed
    exact .unread parsed
  | ok program =>
    obtain ⟨span, front, last, rfl⟩ := Source.statements_of_program parsed
    cases reach with
    | zero =>
      rw [runIn_zero parsed] at failed
      cases failed
    | succ reach =>
      rw [runIn_of_statements parsed, Action.settle, Eval.list, Action.bind_apply] at failed
      cases left : Eval.values (evaluate reach) (.ofProgram machine.globals scope) (front ++ [last])
          machine.state with
      | unfinished =>
        rw [left] at failed
        cases failed
      | value row state =>
        rw [left] at failed
        cases failed
      | exit cause state =>
        have same : state = next.state := by
          rw [left] at failed
          cases cause <;> cases failed <;> rfl
        subst same
        -- What the failing statement leaves behind is what the program does.
        obtain ⟨front', statement, rest, row, before, statements, fronts, stopped⟩ :=
          Eval.values_exit left
        have after := congrArg Outcome.after? stopped
        rw [statements] at parsed
        exact .stopped parsed fronts stopped (evaluate_keepsScopesBut after) fun place name =>
          fun held => (Store.bound_invariant place name).evaluate (fun _ _ _ held => held)
            (fun _ _ => trivial) held after

end Machine

end Scriptlet
