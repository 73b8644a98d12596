import Scriptlet.Proofs.Eval.Provenance

/-! Tracebacks: the calls that led to an error are calls that the executed bodies make. -/

namespace Scriptlet

namespace CallChain

/-- A place in a source. -/
abbrev Place := Source × Position

/-- The place where a range starts. -/
def placeOf (span : Span) : Place :=
  (span.source, span.start)

/-- The contexts of a place, from the innermost one outwards: their names, and where they begin. -/
def contexts : CallChain → List (String × Option Place)
  | .program => [("<program>", none)]
  | .call name site caller => (name, some (placeOf site)) :: caller.contexts

/-- The line of a traceback for a context that has reached a place. -/
def entry (name : String) (reached : Place) : String :=
  s!"  File {reached.1.name}, line {reached.2.line + 1}, in {name}\n"

/-- Only the program itself begins nowhere, and it is the outermost context. -/
theorem contexts_eq_append (chain : CallChain) :
    ∃ calls, chain.contexts = calls ++ [("<program>", none)] ∧
      ∀ context ∈ calls, context.2.isSome := by
  induction chain with
  | program => exact ⟨[], rfl, nofun⟩
  | call name site caller ih =>
    obtain ⟨calls, split, begin⟩ := ih
    refine ⟨(name, some (placeOf site)) :: calls, by rw [contexts, split, List.cons_append], ?_⟩
    exact List.forall_mem_cons.mpr ⟨rfl, begin⟩

/-- Each context but the innermost one has reached the place where the next inner one begins. -/
theorem trace_eq_zipWith (reached : Span) (chain : CallChain) :
    chain.trace reached = List.zipWith entry (chain.contexts.map Prod.fst)
      (placeOf reached :: chain.contexts.filterMap Prod.snd) := by
  -- Each call is reached where it is made by its caller.
  induction chain generalizing reached with
  | program => rfl
  | call name site caller ih =>
    rw [trace, ih]
    rfl

/-- A traceback has one line for each context. -/
theorem length_trace (reached : Span) (chain : CallChain) :
    (chain.trace reached).length = chain.depth := by
  induction chain generalizing reached with
  | program => rfl
  | call name site caller ih => simp [trace, depth, ih]

end CallChain

namespace Machine

/--
The error of a program on a new machine is told at a construct of the body that the innermost call
executes, and every call is made in the body that its caller executes. Its traceback has one line for
each context, the outermost one first: with the line where the error starts for the innermost one,
and with the line where the next inner one begins for each other.
-/
theorem run_traceback {host : Host} {reach : Nat} {source : Source} {main : Node}
    {error : EvalError} {next : Machine} (parsed : source.program = .ok main)
    (failed : (fresh host).run reach source = some (.error (.failed error), next)) :
    error.Located (Written host.scripts main) main ∧
      (∃ calls, error.chain.contexts = calls ++ [("<program>", none)] ∧
        ∀ context ∈ calls, context.2.isSome) ∧
      ∃ lines, error.traceback = "Traceback (most recent call last):\n" ++ String.join lines ∧
        lines.length = error.chain.depth ∧
        lines.reverse = List.zipWith CallChain.entry (error.chain.contexts.map Prod.fst)
          (CallChain.placeOf error.span :: error.chain.contexts.filterMap Prod.snd) := by
  refine ⟨located_of_run parsed failed, error.chain.contexts_eq_append,
    (error.chain.trace error.span).reverse, rfl, ?_, ?_⟩
  · rw [List.length_reverse, CallChain.length_trace]
  · rw [List.reverse_reverse, CallChain.trace_eq_zipWith]

/-- A program with a function that calls a built-in function, which refuses its argument. -/
def refused : Source :=
  { name := "main", text := "FUN f(x) -> APPEND(x, 1)\nf(2)" }

/-- The call of the built-in function is told first, inside of the function that makes it. -/
theorem run_traceback_refused :
    ∃ (main : Node) (error : EvalError), refused.program = .ok main ∧ error.chain.depth = 3 ∧
      error.traceback = "Traceback (most recent call last):\n  File main, line 2, in <program>\n" ++
        "  File main, line 1, in f\n  File main, line 1, in append\n" ∧
      error.Located (Written (Host.prepared [] [] .gibibyte .none).scripts main) main := by
  have check : (failure? (.prepared [] [] .gibibyte .none) 9 refused).any (fun found =>
      found.2.chain.depth = 3 ∧ found.2.traceback =
        "Traceback (most recent call last):\n  File main, line 2, in <program>\n" ++
          "  File main, line 1, in f\n  File main, line 1, in append\n") = true := by
    decide +kernel
  obtain ⟨main, error, next, parsed, failed, seen⟩ := exists_of_failure? check
  obtain ⟨depth, shown⟩ := of_decide_eq_true seen
  exact ⟨main, error, parsed, depth, shown, (run_traceback parsed failed).1⟩

end Machine

end Scriptlet
