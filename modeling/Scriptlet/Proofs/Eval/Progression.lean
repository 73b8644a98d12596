import Scriptlet.Proofs.Eval.LoopExpansion
import Scriptlet.Proofs.Eval.Visit
import Scriptlet.Proofs.Numeric.Overflow

/-!
Counted loops between integers: they go through the terms of an arithmetic progression, whatever
their bodies assign, and end where the next term has reached the bound or left the range of words.
-/

namespace Scriptlet

open Numeric

/-- Whether a value has not reached a bound yet, when it moves towards it by a step. -/
def Precedes (step bound value : Int) : Prop :=
  if 0 < step then value < bound else bound < value

instance (step bound value : Int) : Decidable (Precedes step bound value) :=
  inferInstanceAs (Decidable (if 0 < step then value < bound else bound < value))

/-- The terms of an arithmetic progression that precede a bound, all of them and in their order. -/
structure Progression (first step bound : Int) (counters : List Int64) : Prop where
  terms : counters.map Int64.toInt =
    (List.range counters.length).map fun (k : Nat) => first + k * step
  exact (k : Nat) : k < counters.length ↔ Precedes step bound (first + k * step)

/-- A value that has reached the bound has no terms after it that have not. -/
theorem Progression.nil {first step bound : Int} (reached : ¬ Precedes step bound first) :
    Progression first step bound [] where
  terms := rfl
  exact k := by
    -- The terms do not turn back.
    simp only [List.length_nil, Nat.not_lt_zero, false_iff]
    unfold Precedes at reached ⊢
    by_cases up : 0 < step
    · have moved : 0 ≤ k * step := Int.mul_nonneg (Int.natCast_nonneg k) (Int.le_of_lt up)
      rw [if_pos up] at reached ⊢
      omega
    · have moved : k * step ≤ 0 :=
        Int.mul_nonpos_of_nonneg_of_nonpos (Int.natCast_nonneg k) (by omega)
      rw [if_neg up] at reached ⊢
      omega

/-- A value that precedes the bound comes before the terms that begin with the next one. -/
theorem Progression.cons {first : Int64} {step bound : Int} {counters : List Int64}
    (precedes : Precedes step bound first.toInt)
    (progression : Progression (first.toInt + step) step bound counters) :
    Progression first.toInt step bound (first :: counters) := by
  -- The term at each place is the term after it, counted from the next value.
  have shifted (k : Nat) :
      first.toInt + step + k * step = first.toInt + (k + 1 : Nat) * step := by
    rw [Int.natCast_succ, Int.add_mul, Int.one_mul]
    omega
  constructor
  · rw [List.map_cons, List.length_cons, List.range_succ_eq_map, List.map_cons, List.map_map,
      progression.terms]
    simp only [shifted, Function.comp_def, Nat.succ_eq_add_one]
    simp
  · intro k
    cases k with
    | zero => simpa using precedes
    | succ k => rw [List.length_cons, Nat.add_lt_add_iff_right, progression.exact, shifted]

section Counters

variable {first step bound : Int64}

end Counters

section Loop

variable {frame : Frame} {span : Span} {name : String} {start bound body : Node}
  {step : Option Node} {form : BodyForm} {state begun here : State} {visits rounds : List Visit}
  {counting : Counting} {from_ counter : Number} {before : List Number}
  {yields : List (Option Value)}

/-- Every run of its body that a loop comes to ends so that the loop goes on. -/
def Frame.Undisturbed (frame : Frame) (loop body : Node) (state : State) : Prop :=
  ∀ visits here, frame.endings.Visits frame loop state visits .loopBody body here →
    ∃ yielded after, frame.endings.Yields body here yielded after

/-- A loop that nothing disturbs goes through all counters that it is led through. -/
theorem Frame.Undisturbed.counts {counters : List Number} {last : Number}
    (undisturbed : frame.Undisturbed (.forLoop span name start bound step body form) body state)
    (heads : frame.endings.Heads start bound step state visits from_ counting begun)
    (led : counting.Leads from_ before counter)
    (counts : frame.endings.Counts frame name body before begun rounds yields here)
    (leads : counting.Leads counter counters last) :
    ∃ rounds yields here,
      frame.endings.Counts frame name body (before ++ counters) begun rounds yields here := by
  -- The induction is on the counters that are left, whatever rounds are behind.
  induction leads generalizing before rounds yields here with
  | start => exact ⟨rounds, yields, here, by rwa [List.append_nil]⟩
  | @next counter last counters inside more ih =>
    obtain ⟨yielded, after, ended⟩ := undisturbed _ _ (.counted heads led counts inside)
    rw [List.append_cons]
    exact ih (led.snoc inside) (counts.snoc ended)

end Loop

end Scriptlet
