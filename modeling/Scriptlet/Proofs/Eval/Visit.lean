import Scriptlet.Proofs.Eval.Constructs
import Scriptlet.Proofs.Eval.Reach

/-!
The parts of a construct that evaluation comes to in the construct's own frame: in which order, from
which states, and which of them have ended with a value before. What a construct does depends on
nothing else, but for the calls that it makes.
-/

namespace Scriptlet

/-- How constructs end: from which states with which outcomes. -/
abbrev Endings := Node → State → Outcome Exit Value → Prop

/-- How constructs end in a frame when something evaluates them. -/
def Evaluator.endings (evaluate : Evaluator) (frame : Frame) : Endings :=
  fun node state outcome => evaluate node frame state = outcome

/-- How constructs end in a frame when evaluation goes as far as it has to. -/
def Frame.endings (frame : Frame) : Endings :=
  fun node state outcome => node.Ends frame state outcome

/-- The state once a variable of the frame's scope has been set to a counter. -/
def Frame.count (frame : Frame) (name : String) (counter : Number) (state : State) : State :=
  { state with store := state.store.define frame.scope name (.number counter) }

/-- An evaluation of a construct that begins in a state. -/
structure Visit where
  node : Node
  state : State

/-- What a part is to its construct: the body of a loop, which takes signals, or any other part. -/
inductive Role where
  | plain
  | loopBody
deriving DecidableEq

/-- Counters that a loop goes through from a first one on, and the counter that comes next. -/
inductive Counting.Leads (counting : Counting) : Number → List Number → Number → Prop where
  | start {counter : Number} : Leads counting counter [] counter
  | next {counter last : Number} {counters : List Number} (inside : counting.goesOn counter = true)
    (more : counting.Leads (counter.add counting.step) counters last) :
    Leads counting counter (counter :: counters) last

namespace Endings

/-- Constructs in a row have ended with values. -/
inductive Passes (ends : Endings) : List Node → State → List Visit → State → Prop where
  | nil {state : State} : Passes ends [] state [] state
  | cons {node : Node} {nodes : List Node} {state middle here : State} {value : Value}
    {visits : List Visit} (first : ends node state (.value value middle))
    (rest : ends.Passes nodes middle visits here) :
    Passes ends (node :: nodes) state (⟨node, state⟩ :: visits) here

/-- A conditional comes to a condition, or to the body that it has chosen. -/
inductive Tries (ends : Endings) : Choices → State → List Visit → Node → State → Prop where
  | condition {condition node : Node} {form : BodyForm} {rest : Choices} {state : State} :
    Tries ends (.test condition node form rest) state [] condition state
  | chosen {condition node : Node} {form : BodyForm} {rest : Choices} {state here : State}
    {value : Value} (tested : ends condition state (.value value here))
    (holds : here.store.truth value = true) :
    Tries ends (.test condition node form rest) state [⟨condition, state⟩] node here
  | next {condition node part : Node} {form : BodyForm} {rest : Choices} {state middle here : State}
    {value : Value} {visits : List Visit} (tested : ends condition state (.value value middle))
    (fails : middle.store.truth value = false) (more : ends.Tries rest middle visits part here) :
    Tries ends (.test condition node form rest) state (⟨condition, state⟩ :: visits) part here
  | otherwise {node : Node} {form : BodyForm} {state : State} :
    Tries ends (.otherwise node form) state [] node state

/-- The header of a counted loop has ended with numbers: where it starts, and how it counts. -/
inductive Heads (ends : Endings) (first bound : Node) :
    Option Node → State → List Visit → Number → Counting → State → Prop where
  | plain {state middle here : State} {start limit : Number}
    (starts : ends first state (.value (.number start) middle))
    (limits : ends bound middle (.value (.number limit) here)) :
    Heads ends first bound none state [⟨first, state⟩, ⟨bound, middle⟩] start ⟨limit, .int 1⟩ here
  | stepped {step : Node} {state middle later here : State} {start limit stride : Number}
    (starts : ends first state (.value (.number start) middle))
    (limits : ends bound middle (.value (.number limit) later))
    (steps : ends step later (.value (.number stride) here)) :
    Heads ends first bound (some step) state
      [⟨first, state⟩, ⟨bound, middle⟩, ⟨step, later⟩] start ⟨limit, stride⟩ here

/-- A round of a loop has ended so that the loop goes on, with a value or by `CONTINUE`. -/
inductive Yields (ends : Endings) (body : Node) (state : State) : Option Value → State → Prop where
  | value {value : Value} {after : State} (ended : ends body state (.value value after)) :
    Yields ends body state (some value) after
  | continued {site : Span} {after : State}
    (ended : ends body state (.exit (.continued site) after)) : Yields ends body state none after

/-- A counted loop has gone through rounds for some counters, with what they have yielded. -/
inductive Counts (ends : Endings) (frame : Frame) (name : String) (body : Node) :
    List Number → State → List Visit → List (Option Value) → State → Prop where
  | start {state : State} : Counts ends frame name body [] state [] [] state
  | round {counter : Number} {counters : List Number} {state middle here : State}
    {yielded : Option Value} {visits : List Visit} {yields : List (Option Value)}
    (first : ends.Yields body (frame.count name counter state) yielded middle)
    (more : ends.Counts frame name body counters middle visits yields here) :
    Counts ends frame name body (counter :: counters) state
      (⟨body, frame.count name counter state⟩ :: visits) (yielded :: yields) here

/-- A conditional loop has gone through rounds, with what they have yielded. -/
inductive Repeats (ends : Endings) (condition body : Node) :
    State → List Visit → List (Option Value) → State → Prop where
  | start {state : State} : Repeats ends condition body state [] [] state
  | round {state middle after here : State} {value : Value} {yielded : Option Value}
    {visits : List Visit} {yields : List (Option Value)}
    (tested : ends condition state (.value value middle))
    (holds : middle.store.truth value = true) (first : ends.Yields body middle yielded after)
    (more : ends.Repeats condition body after visits yields here) :
    Repeats ends condition body state (⟨condition, state⟩ :: ⟨body, middle⟩ :: visits)
      (yielded :: yields) here

/--
Evaluation of a construct from a state on comes to one of its parts in the construct's own frame,
after some visits to parts that have all ended so that it went on.
-/
inductive Visits (ends : Endings) (frame : Frame) :
    Node → State → List Visit → Role → Node → State → Prop where
  | item {span : Span} {before after : List Node} {part : Node} {state here : State}
    {visits : List Visit} (passed : ends.Passes before state visits here) :
    Visits ends frame (.list span (before ++ part :: after)) state visits .plain part here
  | statement {span : Span} {before after : List Node} {part : Node} {state here : State}
    {visits : List Visit} (passed : ends.Passes before state visits here) :
    Visits ends frame (.sequence span (before ++ part :: after)) state visits .plain part here
  | assigned {span : Span} {name : String} {part : Node} {state : State} :
    Visits ends frame (.assign span name part) state [] .plain part state
  | left {span : Span} {operator : BinaryOperator} {part right : Node} {state : State} :
    Visits ends frame (.binary span operator part right) state [] .plain part state
  | right {span : Span} {operator : BinaryOperator} {left part : Node} {state here : State}
    {value : Value} (first : ends left state (.value value here)) :
    Visits ends frame (.binary span operator left part) state [⟨left, state⟩] .plain part here
  | operand {span : Span} {operator : UnaryOperator} {part : Node} {state : State} :
    Visits ends frame (.unary span operator part) state [] .plain part state
  | choice {span : Span} {choices : Choices} {part : Node} {state here : State}
    {visits : List Visit} (tried : ends.Tries choices state visits part here) :
    Visits ends frame (.conditional span choices) state visits .plain part here
  | callee {span : Span} {part : Node} {arguments : List Node} {state : State} :
    Visits ends frame (.call span part arguments) state [] .plain part state
  | argument {span : Span} {callee part : Node} {before after : List Node}
    {state middle here : State} {value : Value} {visits : List Visit}
    (called : ends callee state (.value value middle))
    (passed : ends.Passes before middle visits here) :
    Visits ends frame (.call span callee (before ++ part :: after)) state
      (⟨callee, state⟩ :: visits) .plain part here
  | returned {span : Span} {part : Node} {state : State} :
    Visits ends frame (.returning span (some part)) state [] .plain part state
  | first {span : Span} {name : String} {part bound body : Node} {step : Option Node}
    {form : BodyForm} {state : State} :
    Visits ends frame (.forLoop span name part bound step body form) state [] .plain part state
  | bound {span : Span} {name : String} {first part body : Node} {step : Option Node}
    {form : BodyForm} {state here : State} {start : Number}
    (starts : ends first state (.value (.number start) here)) :
    Visits ends frame (.forLoop span name first part step body form) state [⟨first, state⟩] .plain
      part here
  | step {span : Span} {name : String} {first bound part body : Node} {form : BodyForm}
    {state middle here : State} {start limit : Number}
    (starts : ends first state (.value (.number start) middle))
    (limits : ends bound middle (.value (.number limit) here)) :
    Visits ends frame (.forLoop span name first bound (some part) body form) state
      [⟨first, state⟩, ⟨bound, middle⟩] .plain part here
  | counted {span : Span} {name : String} {first bound body : Node} {step : Option Node}
    {form : BodyForm} {state begun here : State} {visits rounds : List Visit}
    {start counter : Number} {counting : Counting} {counters : List Number}
    {yields : List (Option Value)}
    (heads : ends.Heads first bound step state visits start counting begun)
    (leads : counting.Leads start counters counter)
    (counts : ends.Counts frame name body counters begun rounds yields here)
    (inside : counting.goesOn counter = true) :
    Visits ends frame (.forLoop span name first bound step body form) state (visits ++ rounds)
      .loopBody body (frame.count name counter here)
  | condition {span : Span} {condition body : Node} {form : BodyForm} {state here : State}
    {rounds : List Visit} {yields : List (Option Value)}
    (repeats : ends.Repeats condition body state rounds yields here) :
    Visits ends frame (.whileLoop span condition body form) state rounds .plain condition here
  | repeated {span : Span} {condition body : Node} {form : BodyForm} {state middle here : State}
    {rounds : List Visit} {yields : List (Option Value)} {value : Value}
    (repeats : ends.Repeats condition body state rounds yields middle)
    (tested : ends condition middle (.value value here))
    (holds : here.store.truth value = true) :
    Visits ends frame (.whileLoop span condition body form) state
      (rounds ++ [⟨condition, middle⟩]) .loopBody body here

/-- What some endings say of visits, others say of them, too. -/
def Grant (ends ends' : Endings) (visits : List Visit) : Prop :=
  ∀ visit ∈ visits, ∀ outcome, ends visit.node visit.state outcome →
    ends' visit.node visit.state outcome

variable {ends ends' : Endings} {frame : Frame} {node body condition : Node} {nodes : List Node}
  {state here : State} {visit : Visit} {visits later : List Visit} {name : String}
  {yielded : Option Value} {yields : List (Option Value)} {counting : Counting}

/-- The first of the visits that others say the same of. -/
theorem Grant.head (grant : ends.Grant ends' (visit :: visits)) {outcome : Outcome Exit Value}
    (ended : ends visit.node visit.state outcome) : ends' visit.node visit.state outcome :=
  grant visit List.mem_cons_self outcome ended

/-- The visits but for the first one that others say the same of. -/
theorem Grant.tail (grant : ends.Grant ends' (visit :: visits)) : ends.Grant ends' visits :=
  fun other member => grant other (List.mem_cons_of_mem _ member)

/-- The first part of the visits that others say the same of. -/
theorem Grant.left (grant : ends.Grant ends' (visits ++ later)) : ends.Grant ends' visits :=
  fun other member => grant other (List.mem_append_left _ member)

/-- The last part of the visits that others say the same of. -/
theorem Grant.right (grant : ends.Grant ends' (visits ++ later)) : ends.Grant ends' later :=
  fun other member => grant other (List.mem_append_right _ member)

/-- Constructs in a row end with values for all who say the same of them. -/
theorem Passes.carry (passes : ends.Passes nodes state visits here)
    (grant : ends.Grant ends' visits) : ends'.Passes nodes state visits here := by
  induction passes with
  | nil => exact .nil
  | cons first rest ih => exact .cons (grant.head first) (ih grant.tail)

/-- A conditional comes to the same part for all who say the same of the conditions before it. -/
theorem Tries.carry {choices : Choices} (tries : ends.Tries choices state visits node here)
    (grant : ends.Grant ends' visits) : ends'.Tries choices state visits node here := by
  induction tries with
  | condition => exact .condition
  | chosen tested holds => exact .chosen (grant.head tested) holds
  | next tested fails more ih => exact .next (grant.head tested) fails (ih grant.tail)
  | otherwise => exact .otherwise

/-- The header of a counted loop has the same numbers for all who say the same of its parts. -/
theorem Heads.carry {first bound : Node} {step : Option Node} {start : Number}
    (heads : ends.Heads first bound step state visits start counting here)
    (grant : ends.Grant ends' visits) :
    ends'.Heads first bound step state visits start counting here := by
  cases heads with
  | plain starts limits => exact .plain (grant.head starts) (grant.tail.head limits)
  | stepped starts limits steps =>
    exact .stepped (grant.head starts) (grant.tail.head limits) (grant.tail.tail.head steps)

/-- A round yields the same for all who say the same of it. -/
theorem Yields.carry (ended : ends.Yields body state yielded here)
    (grant : ends.Grant ends' (⟨body, state⟩ :: visits)) :
    ends'.Yields body state yielded here := by
  cases ended with
  | value ended => exact .value (grant.head ended)
  | continued ended => exact .continued (grant.head ended)

/-- A counted loop goes through the same rounds for all who say the same of them. -/
theorem Counts.carry {counters : List Number}
    (counts : ends.Counts frame name body counters state visits yields here)
    (grant : ends.Grant ends' visits) :
    ends'.Counts frame name body counters state visits yields here := by
  induction counts with
  | start => exact .start
  | round first more ih => exact .round (first.carry grant) (ih grant.tail)

/-- A conditional loop goes through the same rounds for all who say the same of them. -/
theorem Repeats.carry (repeats : ends.Repeats condition body state visits yields here)
    (grant : ends.Grant ends' visits) :
    ends'.Repeats condition body state visits yields here := by
  induction repeats with
  | start => exact .start
  | round tested holds first more ih =>
    exact .round (grant.head tested) holds (first.carry grant.tail) (ih grant.tail.tail)

/-- Evaluation comes to the same part for all who say the same of the visits before. -/
theorem Visits.carry {role : Role} {part : Node}
    (comes : ends.Visits frame node state visits role part here)
    (grant : ends.Grant ends' visits) :
    ends'.Visits frame node state visits role part here := by
  -- Each way to come to a part has made its own visits before.
  cases comes with
  | item passed => exact .item (passed.carry grant)
  | statement passed => exact .statement (passed.carry grant)
  | assigned => exact .assigned
  | left => exact .left
  | right first => exact .right (grant.head first)
  | operand => exact .operand
  | choice tried => exact .choice (tried.carry grant)
  | callee => exact .callee
  | argument called passed => exact .argument (grant.head called) (passed.carry grant.tail)
  | returned => exact .returned
  | first => exact .first
  | bound starts => exact .bound (grant.head starts)
  | step starts limits => exact .step (grant.head starts) (grant.tail.head limits)
  | counted heads leads counts inside =>
    exact .counted (heads.carry grant.left) leads (counts.carry grant.right) inside
  | condition repeats => exact .condition (repeats.carry grant)
  | repeated repeats tested holds =>
    exact .repeated (repeats.carry grant.left) (grant.right.head tested) holds

/-- As many rounds have been visited as there were counters. -/
theorem Counts.length_eq {counters : List Number}
    (counts : ends.Counts frame name body counters state visits yields here) :
    visits.length = counters.length := by
  induction counts with
  | start => rfl
  | round first more ih => simp [ih]

/-- The condition and the body have been visited once in each round. -/
theorem Repeats.length_eq (repeats : ends.Repeats condition body state visits yields here) :
    visits.length = 2 * yields.length := by
  induction repeats with
  | start => rfl
  | round tested holds first more ih => simp [ih, Nat.mul_add]

/-- A counted loop that has gone through one more round. -/
theorem Counts.snoc {counters : List Number} {counter : Number} {after : State}
    (counts : ends.Counts frame name body counters state visits yields here)
    (last : ends.Yields body (frame.count name counter here) yielded after) :
    ends.Counts frame name body (counters ++ [counter]) state
      (visits ++ [⟨body, frame.count name counter here⟩]) (yields ++ [yielded]) after := by
  induction counts with
  | start => exact .round last .start
  | round first more ih => exact .round first (ih last)

/-- A conditional loop that has gone through one more round. -/
theorem Repeats.snoc {value : Value} {middle after : State}
    (repeats : ends.Repeats condition body state visits yields here)
    (tested : ends condition here (.value value middle)) (holds : middle.store.truth value = true)
    (last : ends.Yields body middle yielded after) :
    ends.Repeats condition body state
      (visits ++ [⟨condition, here⟩, ⟨body, middle⟩]) (yields ++ [yielded]) after := by
  induction repeats with
  | start => exact .round tested holds last .start
  | round before held first more ih => exact .round before held first (ih tested)

end Endings

/-- Counters that a loop goes through, with the next one behind them. -/
theorem Counting.Leads.snoc {counting : Counting} {first counter : Number} {counters : List Number}
    (leads : counting.Leads first counters counter) (inside : counting.goesOn counter = true) :
    counting.Leads first (counters ++ [counter]) (counter.add counting.step) := by
  induction leads with
  | start => exact .next inside .start
  | next before more ih => exact .next before (ih inside)

section Reaches

variable {frame : Frame} {node : Node} {state : State} {outcome outcome' : Outcome Exit Value}

/-- An evaluation has one outcome. -/
theorem Node.Ends.unique (ends : node.Ends frame state outcome)
    (ends' : node.Ends frame state outcome') : outcome = outcome' := by
  -- Both have ended where the greater of the two reaches leaves off.
  obtain ⟨least, settled⟩ := ends.from_
  obtain ⟨least', settled'⟩ := ends'.from_
  rw [← settled (max least least') (Nat.le_max_left _ _), settled' _ (Nat.le_max_right _ _)]

/-- What some visits end with does not change from some reach on. -/
theorem Frame.endings_grant (frame : Frame) (visits : List Visit) :
    ∃ least, ∀ reach, least ≤ reach →
      frame.endings.Grant ((evaluate reach).endings frame) visits := by
  -- There are finitely many visits, and each of them ends at some reach or never.
  induction visits with
  | nil => exact ⟨0, fun _ _ _ member => nomatch member⟩
  | cons visit visits ih =>
    obtain ⟨rest, settled⟩ := ih
    have first : ∃ least, ∀ reach, least ≤ reach → ∀ outcome,
        visit.node.Ends frame visit.state outcome →
          evaluate reach visit.node frame visit.state = outcome := by
      by_cases ends : ∃ outcome, visit.node.Ends frame visit.state outcome
      · obtain ⟨outcome, ends⟩ := ends
        obtain ⟨least, ended⟩ := ends.from_
        exact ⟨least, fun reach longer other same => by rw [ended reach longer, ends.unique same]⟩
      · exact ⟨0, fun _ _ outcome ended => absurd ⟨outcome, ended⟩ ends⟩
    obtain ⟨least, ended⟩ := first
    refine ⟨max least rest, fun reach longer other member => ?_⟩
    rcases List.mem_cons.mp member with rfl | member
    · exact ended reach (by omega)
    · exact settled reach (by omega) other member

end Reaches

/-- What a loop has kept after rounds that have yielded something, or nothing. -/
def BodyForm.kept (form : BodyForm) (values : Array Value) (yields : List (Option Value)) :
    Array Value :=
  yields.foldl form.keep values

namespace BodyForm

variable {ε : Type}

/-- A loop on one line keeps what its rounds have yielded, in their order. -/
theorem kept_inline (values : Array Value) (yields : List (Option Value)) :
    BodyForm.inline.kept values yields = values ++ (yields.filterMap id).toArray := by
  induction yields generalizing values with
  | nil => simp [kept]
  | cons yielded yields ih =>
    have rest := ih (BodyForm.inline.keep values yielded)
    cases yielded with
    | none => simpa [kept, keep] using rest
    | some value => simpa [kept, keep] using rest

/-- The outcome of a loop is the list of what its rounds have yielded, or nothing for a block. -/
theorem collect_kept (form : BodyForm) (yields : List (Option Value)) :
    (form.collect (form.kept #[] yields) : Action ε Value) =
      form.collect (yields.filterMap id).toArray := by
  cases form with
  | inline => rw [kept_inline, Array.empty_append]
  | block => rfl

/-- The values that a loop has kept are its outcome. -/
theorem collect_ne_unfinished (form : BodyForm) (results : Array Value) (state : State) :
    (form.collect results : Action ε Value) state ≠ .unfinished := by
  cases form <;> nofun

end BodyForm

namespace Eval

variable {evaluate : Evaluator} {frame : Frame} {state here : State} {visits : List Visit}
  {body condition : Node} {form : BodyForm} {name : String} {values : Array Value}
  {yielded : Option Value} {yields : List (Option Value)} {counting : Counting} {rounds : Nat}

/-- The rounds that a loop goes on from are those that end with a value or by `CONTINUE`. -/
theorem round_yields_iff :
    Action.round (evaluate body frame) state = .value (.next yielded) here ↔
      (evaluate.endings frame).Yields body state yielded here := by
  -- Errors and the other two signals end the loop.
  constructor
  · intro same
    cases ended : evaluate body frame state with
    | value value after =>
      simp only [Action.round, ended, Outcome.value.injEq, Action.Round.next.injEq] at same
      obtain ⟨rfl, rfl⟩ := same
      exact .value ended
    | exit cause after =>
      cases cause with
      | continued site =>
        simp only [Action.round, ended, Outcome.value.injEq, Action.Round.next.injEq] at same
        obtain ⟨rfl, rfl⟩ := same
        exact .continued ended
      | failed error => simp [Action.round, ended] at same
      | returned value => simp [Action.round, ended] at same
      | broke site => simp [Action.round, ended] at same
    | unfinished => simp [Action.round, ended] at same
  · intro yields
    cases yields with
    | value ended =>
      have ended : evaluate body frame state = _ := ended
      simp [Action.round, ended]
    | continued ended =>
      have ended : evaluate body frame state = _ := ended
      simp [Action.round, ended]

/-- The values of the header of a counted loop are there before its rounds begin. -/
theorem forLoop_heads {first bound : Node} {step : Option Node} {start : Number}
    (heads : (evaluate.endings frame).Heads first bound step state visits start counting here)
    (rounds : Nat) :
    forLoop evaluate frame rounds name first bound step body form state =
      countedRounds counting (fun counter => Store.define frame.scope name (.number counter))
        (Action.round (evaluate body frame)) form rounds start #[] here := by
  -- A header without a step counts by one.
  cases heads with
  | @plain _ middle _ start limit starts limits =>
    have starts : evaluate first frame state = _ := starts
    have limits : evaluate bound frame middle = _ := limits
    simp [forLoop, Eval.number, stepOf, Action.bind_apply, starts, limits]
  | @stepped step _ middle later _ start limit stride starts limits steps =>
    have starts : evaluate first frame state = _ := starts
    have limits : evaluate bound frame middle = _ := limits
    have steps : evaluate step frame later = _ := steps
    simp [forLoop, Eval.number, stepOf, Action.bind_apply, starts, limits, steps]

/-- The rounds that a counted loop has gone through are behind it. -/
theorem countedRounds_counts {first counter : Number} {counters : List Number}
    (leads : counting.Leads first counters counter)
    (counts : (evaluate.endings frame).Counts frame name body counters state visits yields here)
    (rounds : Nat) :
    countedRounds counting (fun counter => Store.define frame.scope name (.number counter))
        (Action.round (evaluate body frame)) form (counters.length + rounds) first values state =
      countedRounds counting (fun counter => Store.define frame.scope name (.number counter))
        (Action.round (evaluate body frame)) form rounds counter (form.kept values yields)
        here := by
  -- The induction is on the rounds that are behind; what each of them has yielded is kept.
  induction counts generalizing first values with
  | start =>
    cases leads with
    | start => simp [BodyForm.kept]
  | @round current counters state middle here yielded visits yields began more ih =>
    cases leads with
    | next inside leads =>
      have ended : Action.round (evaluate body frame) (frame.count name current state) =
          .value (.next yielded) middle := round_yields_iff.mpr began
      simp only [Frame.count] at ended
      rw [List.length_cons, Nat.add_right_comm]
      simp only [countedRounds, inside, if_true, ended, BodyForm.kept, List.foldl_cons]
      exact ih leads

/-- The rounds that a conditional loop has gone through are behind it. -/
theorem conditionalRounds_repeats
    (repeats : (evaluate.endings frame).Repeats condition body state visits yields here)
    (rounds : Nat) :
    conditionalRounds (evaluate condition frame) (Action.round (evaluate body frame)) form
        (yields.length + rounds) values state =
      conditionalRounds (evaluate condition frame) (Action.round (evaluate body frame)) form
        rounds (form.kept values yields) here := by
  induction repeats generalizing values with
  | start => simp [BodyForm.kept]
  | @round state middle after here value yielded visits yields tested holds began more ih =>
    have tested : evaluate condition frame state = .value value middle := tested
    rw [List.length_cons, Nat.add_right_comm]
    simp only [conditionalRounds, tested, holds, if_true, round_yields_iff.mpr began,
      BodyForm.kept, List.foldl_cons]
    exact ih

/-- A counted loop that has got to a counter goes on with it, if it may have enough rounds. -/
theorem construct_counts (library : Library) (span : Span) {first bound : Node}
    {step : Option Node} {start counter : Number} {begun : State} {visited : List Visit}
    {counters : List Number}
    (heads : (evaluate.endings frame).Heads first bound step state visits start counting begun)
    (leads : counting.Leads start counters counter)
    (counts : (evaluate.endings frame).Counts frame name body counters begun visited yields here)
    (enough : (visits ++ visited).length < rounds) :
    ∃ more, construct library evaluate rounds (.forLoop span name first bound step body form) frame
        state =
      countedRounds counting (fun counter => Store.define frame.scope name (.number counter))
        (Action.round (evaluate body frame)) form (more + 1) counter (form.kept #[] yields)
        here := by
  -- The body has been visited once for each counter, so that one more round is allowed.
  have behind : counters.length < rounds := by
    have := counts.length_eq
    rw [List.length_append] at enough
    omega
  obtain ⟨more, rfl⟩ := Nat.exists_eq_add_of_lt behind
  exact ⟨more, by rw [construct, forLoop_heads heads, Nat.add_assoc,
    countedRounds_counts leads counts]⟩

/-- A conditional loop that has gone through rounds goes on, if it may have enough of them. -/
theorem construct_repeats (library : Library) (span : Span)
    (repeats : (evaluate.endings frame).Repeats condition body state visits yields here)
    (enough : visits.length < rounds) :
    ∃ more, construct library evaluate rounds (.whileLoop span condition body form) frame state =
      conditionalRounds (evaluate condition frame) (Action.round (evaluate body frame)) form
        (more + 1) (form.kept #[] yields) here := by
  -- There are two visits for each round that is behind.
  have behind : yields.length < rounds := by
    have := repeats.length_eq
    omega
  obtain ⟨more, rfl⟩ := Nat.exists_eq_add_of_lt behind
  exact ⟨more, by rw [construct, whileLoop, Nat.add_assoc, conditionalRounds_repeats repeats]⟩

end Eval

/-- A counted loop ends with what its rounds have yielded once its counter reaches the bound. -/
theorem Node.Ends.counted {frame : Frame} {span : Span} {name : String} {first bound body : Node}
    {step : Option Node} {form : BodyForm} {state begun here : State} {visits rounds : List Visit}
    {start counter : Number} {counting : Counting} {counters : List Number}
    {yields : List (Option Value)}
    (heads : frame.endings.Heads first bound step state visits start counting begun)
    (leads : counting.Leads start counters counter)
    (counts : frame.endings.Counts frame name body counters begun rounds yields here)
    (outside : counting.goesOn counter = false) :
    (Node.forLoop span name first bound step body form).Ends frame state
      (form.collect (yields.filterMap id).toArray here) := by
  -- All visits have ended at some reach, which is also enough for one more round.
  obtain ⟨least, granted⟩ := frame.endings_grant (visits ++ rounds)
  let reach := max least ((visits ++ rounds).length + 1)
  have grant := granted reach (by omega)
  have within : (visits ++ rounds).length < reach := by omega
  obtain ⟨more, same⟩ := Eval.construct_counts Eval.builtin span (heads.carry grant.left) leads
    (counts.carry grant.right) within
  rw [← BodyForm.collect_kept]
  exact ⟨form.collect_ne_unfinished _ here, reach + 1,
    same.trans (by simp only [Eval.countedRounds, outside, Bool.false_eq_true, if_false])⟩

end Scriptlet
