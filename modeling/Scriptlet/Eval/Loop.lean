import Scriptlet.Action

/-! Loops: rounds of a body until a bound, a condition or a signal ends them. -/

namespace Scriptlet

namespace BodyForm

/-- The value of a body: a block has none. -/
def result (form : BodyForm) (value : Value) : Value :=
  match form with
  | .inline => value
  | .block => .null

/-- The values of a loop after one more round; only loops on one line keep any. -/
def keep (form : BodyForm) (values : Array Value) (yielded : Option Value) : Array Value :=
  match form, yielded with
  | .inline, some value => values.push value
  | _, _ => values

/-- The value of a loop: the list of what its rounds yielded, or nothing for a block. -/
def collect {ε : Type} (form : BodyForm) (values : Array Value) : Action ε Value :=
  match form with
  | .inline => Action.makeList values
  | .block => pure .null

end BodyForm

/-- A counted loop runs from its counter up to a bound, or down to it, without reaching it. -/
structure Counting where
  bound : Number
  step : Number

namespace Counting

/-- A step that is not negative counts up. -/
def ascends (counting : Counting) : Bool :=
  (0 : Float) ≤ counting.step.toFloat

/-- Whether a counter has not reached the bound yet. -/
def goesOn (counting : Counting) (counter : Number) : Bool :=
  counter.compare? counting.bound == some (if counting.ascends then .lt else .gt)

end Counting

namespace Eval

/--
The rounds of a counted loop from a counter on, at most so many of them: the variable is set to the
counter before each round, and what the round does to the variable does not change the count.
-/
def countedRounds (counting : Counting) (bind : Number → Store → Store)
    (round : Action Exit Action.Round) (form : BodyForm) :
    Nat → Number → Array Value → Action Exit Value
  | 0, _, _, _ => .unfinished
  | rounds + 1, counter, values, ⟨store, host⟩ =>
    if counting.goesOn counter then
      match round ⟨bind counter store, host⟩ with
      | .value (.next yielded) state =>
        countedRounds counting bind round form rounds (counter.add counting.step)
          (form.keep values yielded) state
      | .value .last state => form.collect values state
      | .exit cause state => .exit cause state
      | .unfinished => .unfinished
    else
      form.collect values ⟨store, host⟩

/-- The rounds of a conditional loop, at most so many of them; the condition comes before each. -/
def conditionalRounds (condition : Action Exit Value) (round : Action Exit Action.Round)
    (form : BodyForm) : Nat → Array Value → Action Exit Value
  | 0, _, _ => .unfinished
  | rounds + 1, values, state =>
    match condition state with
    | .value value state =>
      if state.store.truth value then
        match round state with
        | .value (.next yielded) state =>
          conditionalRounds condition round form rounds (form.keep values yielded) state
        | .value .last state => form.collect values state
        | .exit cause state => .exit cause state
        | .unfinished => .unfinished
      else
        form.collect values state
    | .exit cause state => .exit cause state
    | .unfinished => .unfinished

end Eval

end Scriptlet
