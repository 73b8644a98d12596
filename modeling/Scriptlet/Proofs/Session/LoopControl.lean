import Scriptlet.Proofs.Eval.Provenance

/-! Words that only loops take: programs that use them inside of loops never fail because of them. -/

namespace Scriptlet

namespace Machine

/--
A program on a new machine that fails because of a word that only loops take fails at such a word
outside of every loop of its body, in the program or in a script that it can load. So nothing fails
in this way if none of them has such a word outside of loops.
-/
theorem run_outsideLoop {host : Host} {source : Source} {main : Node}
    (parsed : source.program = .ok main) :
    (∀ {reach error next signal},
      (fresh host).run reach source = some (.error (.failed error), next) →
        error.cause = .outsideLoop signal →
          ∃ program, Runnable host.scripts main program ∧ error.span ∈ program.strays signal) ∧
      ((∀ program signal, Runnable host.scripts main program → program.strays signal = []) →
        ∀ {reach error next signal},
          (fresh host).run reach source = some (.error (.failed error), next) →
            error.cause ≠ .outsideLoop signal) := by
  have strayed {reach : Nat} {error : EvalError} {next : Machine} {signal : LoopSignal}
      (failed : (fresh host).run reach source = some (.error (.failed error), next))
      (cause : error.cause = .outsideLoop signal) :
      ∃ program, Runnable host.scripts main program ∧ error.span ∈ program.strays signal :=
    (located_of_run parsed failed).stray .main cause
  refine ⟨strayed, ?_⟩
  intro inLoops reach error next signal failed cause
  obtain ⟨program, runnable, stray⟩ := strayed failed cause
  rw [inLoops program signal runnable] at stray
  cases stray

/-- A program that calls a function with a `BREAK` of its own in a loop. -/
def breakingOut : Source :=
  { name := "main", text := "FUN f()\nBREAK\nEND\nWHILE 1 THEN f()" }

/-- The loop around the call does not take the signal, so the program fails at the `BREAK`. -/
theorem run_outsideLoop_called :
    ∃ (main program : Node) (error : EvalError), breakingOut.program = .ok main ∧
      error.cause = .outsideLoop .breaking ∧ error.span = ⟨breakingOut, ⟨8, 1, 0⟩, ⟨13, 1, 5⟩⟩ ∧
      Runnable (Host.prepared [] [] .gibibyte .none).scripts main program ∧
      error.span ∈ program.strays .breaking := by
  have check : (failure? (.prepared [] [] .gibibyte .none) 9 breakingOut).any (fun found =>
      found.2.cause = .outsideLoop .breaking ∧
        found.2.span = ⟨breakingOut, ⟨8, 1, 0⟩, ⟨13, 1, 5⟩⟩) = true := by decide +kernel
  obtain ⟨main, error, next, parsed, failed, seen⟩ := exists_of_failure? check
  obtain ⟨cause, span⟩ := of_decide_eq_true seen
  obtain ⟨program, runnable, stray⟩ := (run_outsideLoop parsed).1 failed cause
  exact ⟨main, program, error, parsed, cause, span, runnable, stray⟩

/-- A program that loads a script, and calls the first function of a list that both can see. -/
def borrowing : Source :=
  { name := "main", text := "VAR l = []\nFUN g()\nBREAK\nEND\nRUN(\"s\")\n(l / 0)()" }

/-- A host with a script that puts a function with a `BREAK` of its own into the list. -/
def lender : Host :=
  .prepared [] [("s", "APPEND(l, FUN ()\nBREAK\nEND)")] .gibibyte .none

/-- The word that a program fails because of need not be one of its own: the script's is none. -/
theorem run_outsideLoop_borrowed :
    ∃ (main : Node) (error : EvalError) (next : Machine), borrowing.program = .ok main ∧
      (fresh lender).run 9 borrowing = some (.error (.failed error), next) ∧
      error.cause = .outsideLoop .breaking ∧ error.span ∉ main.strays .breaking := by
  have check : (failure? lender 9 borrowing).any (fun found =>
      found.2.cause = .outsideLoop .breaking ∧ found.2.span ∉ found.1.strays .breaking) = true := by
    decide +kernel
  obtain ⟨main, error, next, parsed, failed, seen⟩ := exists_of_failure? check
  obtain ⟨cause, elsewhere⟩ := of_decide_eq_true seen
  exact ⟨main, error, next, parsed, failed, cause, elsewhere⟩

end Machine

end Scriptlet
