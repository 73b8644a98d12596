import Scriptlet.Proofs.Eval.Attainment
import Scriptlet.Proofs.Eval.Reach
import Scriptlet.Proofs.Numeric.Sign

/-!
Counted loops as conditional ones: the counter is a variable that nothing else names, and each round
advances it before the body.
-/

namespace Scriptlet

/-- The names in the header of a counted loop: its variable, and three others that it reads. -/
structure LoopHeader where
  name : String
  counter : String
  bound : String
  step : String
  distinct : [counter, bound, step].Nodup
  apart : name ∉ [counter, bound, step]

namespace LoopHeader

/-- The variables that the header of a counted loop reads. -/
def reads (header : LoopHeader) : List String :=
  [header.counter, header.bound, header.step]

/-- The counted loop over a block of statements; every construct in it has a range of its own. -/
def counted (header : LoopHeader) (spans : Nat → Span) (statements : List Node) : Node :=
  .forLoop (spans 0) header.name (.reference (spans 1) header.counter)
    (.reference (spans 2) header.bound) (some (.reference (spans 3) header.step))
    (.sequence (spans 4) statements) .block

/-- The comparison of the counter with the bound. -/
def condition (header : LoopHeader) (spans : Nat → Span) (operator : BinaryOperator) : Node :=
  .binary (spans 0) operator (.reference (spans 1) header.counter)
    (.reference (spans 2) header.bound)

/-- The assignments that count: of the counter to the variable, and of the next one to itself. -/
def advance (header : LoopHeader) (spans : Nat → Span) : List Node :=
  [.assign (spans 3) header.name (.reference (spans 4) header.counter),
    .assign (spans 5) header.counter (.binary (spans 6) .add
      (.reference (spans 7) header.counter) (.reference (spans 8) header.step))]

/-- The conditional loop over the same block, which counts before the statements of the block. -/
def expanded (header : LoopHeader) (spans : Nat → Span) (operator : BinaryOperator)
    (statements : List Node) : Node :=
  .whileLoop (spans 10) (header.condition spans operator)
    (.sequence (spans 9) (header.advance spans ++ statements)) .block

end LoopHeader

/-- Whether a number is not negative, which NaN is no answer to. -/
def Number.isNonnegative : Number → Bool
  | .int value => 0 ≤ value.toInt
  | .float value => (0 : Float) ≤ value

/-- The comparison by which a loop goes on that counts by a step. -/
def Number.direction (step : Number) : BinaryOperator :=
  if step.isNonnegative then .less else .greater

/--
Two states with the same host, in whose stores nothing but one variable and the elements of some
lists differs; those lists were made since a start, and nothing holds them.
-/
structure State.SameBut (place : ScopeId) (name : String) (start : Nat)
    (discarded : ListId → Prop) (state state' : State) : Prop where
  host : state.host = state'.host
  stores : state.store.SameBut place name discarded state'.store
  sound : state.store.SoundBut discarded
  sound' : state'.store.SoundBut discarded
  since (list : ListId) (thrown : discarded list) : start ≤ list.index

/--
Two loops that end alike: without a value, with the same error or with the same returned value, in
states that are the same but for one variable; or neither of them ends.
-/
inductive Outcome.LoopsAlike (place : ScopeId) (name : String) (start : Nat) :
    Outcome Exit Value → Outcome Exit Value → Prop where
  | null {discarded : ListId → Prop} {state state' : State}
    (states : state.SameBut place name start discarded state') :
    Outcome.LoopsAlike place name start (.value .null state) (.value .null state')
  | failed {discarded : ListId → Prop} {state state' : State} (error : EvalError)
    (states : state.SameBut place name start discarded state') :
    Outcome.LoopsAlike place name start (.exit (.failed error) state) (.exit (.failed error) state')
  | returned {discarded : ListId → Prop} {state state' : State} {value : Value}
    (kept : value.Kept discarded state.store.lists.size)
    (states : state.SameBut place name start discarded state') :
    Outcome.LoopsAlike place name start (.exit (.returned value) state)
      (.exit (.returned value) state')
  | unfinished : Outcome.LoopsAlike place name start .unfinished .unfinished

namespace Eval

variable {reach : Nat} {frame : Frame} {state : State} {name : String} {value : Value}
  {span : Span}

/-- A variable of the frame's own scope has its value. -/
theorem evaluate_reference (bound : state.store.binding? frame.scope name = some value) :
    evaluate (reach + 1) (.reference span name) frame state = .value value state := by
  have seen := Store.lookup_of_binding? bound
  show Action.mapExit Exit.failed (reference frame span name) state = _
  simp [Action.mapExit, reference, Action.bind_apply, seen]

/-- A number of the frame's own scope is one where a number has to be. -/
theorem number_reference {number : Number}
    (bound : state.store.binding? frame.scope name = some (.number number)) :
    Eval.number (evaluate (reach + 1)) frame (.reference span name) state =
      .value number state := by
  simp [Eval.number, Action.bind_apply, evaluate_reference bound]

/-- Two numbers of the frame's own scope between which an operator has a value. -/
theorem evaluate_binary_references {left right : String} {leftSpan rightSpan : Span}
    {operator : BinaryOperator} {first second : Number} {result : Value}
    (leftBound : state.store.binding? frame.scope left = some (.number first))
    (rightBound : state.store.binding? frame.scope right = some (.number second))
    (computed : Operation.numbers operator first second = .ok result) :
    evaluate (reach + 2) (.binary span operator (.reference leftSpan left)
      (.reference rightSpan right)) frame state = .value result state := by
  show Eval.binary (evaluate (reach + 1)) frame span operator _ _ state = _
  simp only [Eval.binary, Action.bind_apply, evaluate_reference leftBound,
    evaluate_reference rightBound, Action.memory_apply, Action.look_apply, Operation.binary,
    computed]
  rfl

/-- Rounding a step to a float does not turn the direction of a loop. -/
theorem ascends_eq (counting : Counting) : counting.ascends = counting.step.isNonnegative := by
  -- Only integers are rounded.
  unfold Counting.ascends Number.isNonnegative Number.toFloat
  cases counting.step with
  | int value => exact decide_eq_decide.mpr (Numeric.toFloat_nonneg_iff value)
  | float value => rfl

/-- The comparison of a counted loop says whether it goes on. -/
theorem comparison_direction (counting : Counting) (counter : Number) :
    Operation.numbers counting.step.direction counter counting.bound =
      .ok (.ofBool (counting.goesOn counter)) := by
  unfold Number.direction Counting.goesOn
  rw [ascends_eq]
  cases counting.step.isNonnegative <;> rfl

/-- A condition that was found to be true or false is so. -/
theorem truth_ofBool (store : Store) (condition : Bool) :
    store.truth (.ofBool condition) = condition := by
  cases condition <;> rfl

/-- A variable of the frame's scope gets a number. -/
theorem evaluate_assign_number {number : Number} {node : Node}
    (valued : evaluate reach node frame state = .value (.number number) state) :
    evaluate (reach + 1) (.assign span name node) frame state =
      .value (.number number)
        { state with store := state.store.define frame.scope name (.number number) } := by
  show Eval.assign (evaluate reach) frame name node state = _
  simp only [Eval.assign, Action.bind_apply, valued]
  rfl

/-- A round that makes a list of values goes on if there are all of them. -/
theorem round_makeList {state first : State} {body : Action Exit Value}
    {values : Action Exit (List Value)} {shape : List Value → Array Value}
    (same : body state = (values >>= fun row => Action.makeList (shape row)) first) :
    Action.round body state =
      match values first with
      | .value row after =>
        .value (.next (some (.list ⟨after.store.lists.size⟩)))
          ⟨(after.store.addList (shape row)).2, after.host⟩
      | .exit (.continued _) after => .value (.next none) after
      | .exit (.broke _) after => .value .last after
      | .exit (.failed error) after => .exit (.failed error) after
      | .exit (.returned value) after => .exit (.returned value) after
      | .unfinished => .unfinished := by
  -- Only the values decide how the round ends; the list that they make is the last thing in it.
  unfold Action.round
  rw [same, Action.bind_apply]
  rcases values first with ⟨row, after⟩ | ⟨_ | _ | _ | _, after⟩ | _ <;> rfl

end Eval

/-- A counted loop in a frame, with the numbers it counts to and by, and how many lists there were. -/
structure CountedLoop where
  header : LoopHeader
  frame : Frame
  counting : Counting
  start : Nat

namespace CountedLoop

/-- The counter of a loop, as a variable that nothing else names. -/
def secret (loop : CountedLoop) (counter : Number) : Secret where
  place := loop.frame.scope
  name := loop.header.counter
  value := .number counter
  fixed := [(loop.header.bound, .number loop.counting.bound),
    (loop.header.step, .number loop.counting.step)]
  apart := by
    have distinct := loop.header.distinct
    simp only [List.nodup_cons, List.mem_cons, List.not_mem_nil, or_false, not_or] at distinct
    simp [Ne.symm distinct.1.1, Ne.symm distinct.1.2]
  start := loop.start

/-- The loop beside its expansion, whose counter has got to some number. -/
abbrev beside (loop : CountedLoop) (counter : Number) : Coupling :=
  .hidden (loop.secret counter)

/-- The variables that the header of a loop reads have their values. -/
structure Counts (loop : CountedLoop) (counter : Number) (store : Store) : Prop where
  counter : store.binding? loop.frame.scope loop.header.counter = some (.number counter)
  bound : store.binding? loop.frame.scope loop.header.bound = some (.number loop.counting.bound)
  step : store.binding? loop.frame.scope loop.header.step = some (.number loop.counting.step)

/-- A store in which the variable of a loop and the next counter have been set. -/
def advanced (loop : CountedLoop) (counter : Number) (store : Store) : Store :=
  (store.define loop.frame.scope loop.header.name (.number counter)).define loop.frame.scope
    loop.header.counter (.number (counter.add loop.counting.step))

variable {loop : CountedLoop} {counter : Number} {state state' : State} {store store' : Store}
  {region : Region} {reach : Nat} {spans : Nat → Span} {statements : List Node}

/-- The statements of a round come behind the assignments that count. -/
theorem Counts.list_advance (counts : loop.Counts counter state.store) :
    Eval.list (evaluate (reach + 3)) loop.frame (loop.header.advance spans ++ statements) state =
      (Eval.values (evaluate (reach + 3)) loop.frame statements >>= fun row =>
        Action.makeList
          (.number counter :: .number (counter.add loop.counting.step) :: row).toArray)
        ⟨loop.advanced counter state.store, state.host⟩ := by
  have apart := loop.header.apart
  simp only [List.mem_cons, List.not_mem_nil, or_false, not_or] at apart
  let once : State :=
    ⟨state.store.define loop.frame.scope loop.header.name (.number counter), state.host⟩
  let twice : State := ⟨loop.advanced counter state.store, state.host⟩
  -- The variable of the loop is neither the counter nor the step.
  have counted : once.store.binding? loop.frame.scope loop.header.counter =
      some (.number counter) := by
    rw [Store.binding?_define_of_ne (.inr (Ne.symm apart.1))]
    exact counts.counter
  have stepped : once.store.binding? loop.frame.scope loop.header.step =
      some (.number loop.counting.step) := by
    rw [Store.binding?_define_of_ne (.inr (Ne.symm apart.2.2))]
    exact counts.step
  have first : evaluate (reach + 3) (.assign (spans 3) loop.header.name
      (.reference (spans 4) loop.header.counter)) loop.frame state =
        .value (.number counter) once :=
    Eval.evaluate_assign_number (Eval.evaluate_reference counts.counter)
  have second : evaluate (reach + 3) (.assign (spans 5) loop.header.counter (.binary (spans 6) .add
      (.reference (spans 7) loop.header.counter) (.reference (spans 8) loop.header.step)))
        loop.frame once = .value (.number (counter.add loop.counting.step)) twice :=
    Eval.evaluate_assign_number (Eval.evaluate_binary_references counted stepped rfl)
  simp only [Eval.list, LoopHeader.advance, List.cons_append, List.nil_append, Eval.values,
    Action.bind_apply, first, second]
  cases Eval.values (evaluate (reach + 3)) loop.frame statements twice <;> rfl

/-- The condition of the expansion says whether the loop goes on. -/
theorem Counts.evaluate_condition (counts : loop.Counts counter state.store) :
    evaluate (reach + 2) (loop.header.condition spans loop.counting.step.direction) loop.frame state =
      .value (.ofBool (loop.counting.goesOn counter)) state :=
  Eval.evaluate_binary_references counts.counter counts.bound
    (Eval.comparison_direction loop.counting counter)

/-- States that correspond are the same but for the counter. -/
theorem sameBut (states : (loop.beside counter).States region state state') :
    state.SameBut loop.frame.scope loop.header.counter loop.start region.discarded state' where
  host := states.hosts.1
  stores := states.stores.same
  sound := states.stores.sound
  sound' := states.stores.sound'
  since := fun _ thrown => (states.stores.recent thrown).1

/-- The second of two corresponding states has the values that a loop counts with. -/
theorem counts (hidden : store.Hidden (loop.secret counter) region store') :
    loop.Counts counter store' where
  counter := hidden.value
  bound := hidden.fixed List.mem_cons_self
  step := hidden.fixed (List.mem_cons_of_mem _ List.mem_cons_self)

/-- No one binds the variables that the header of a loop reads, but all others may be bound. -/
theorem not_guards {name : String} (apart : name ∉ loop.header.reads) (counter : Number) :
    ¬ (loop.secret counter).Guards name := by
  simp only [LoopHeader.reads, List.mem_cons, List.not_mem_nil, or_false, not_or] at apart
  simp [Secret.Guards, secret, apart]

/-- States correspond once the loop has set its variable and the expansion has counted. -/
theorem beside_advanced (states : (loop.beside counter).States region state state') :
    (loop.beside (counter.add loop.counting.step)).States region
      ⟨state.store.define loop.frame.scope loop.header.name (.number counter), state.host⟩
      ⟨loop.advanced counter state'.store, state'.host⟩ := by
  -- Both have set the variable; the counter differs already, and may get any number.
  have known : region.Knows (.number counter) := trivial
  have defined := states.stores.define known
    (.inr (not_guards loop.header.apart counter) : loop.frame.scope ≠ loop.frame.scope ∨ _)
  exact ⟨defined.advance (counter.add loop.counting.step), states.hosts⟩

/-- Statements that name nothing of what the header reads go on alike. -/
theorem values_outcomes (unnamed : ∀ name ∈ loop.header.reads, name ∉ Node.namesOfAll statements)
    (states : (loop.beside counter).States region state state')
    (seen : region.scopes loop.frame.scope ∧ region.scopes loop.frame.program) :
    (loop.beside counter).Outcomes region ((loop.beside counter).Exits (· = ·))
      (loop.beside counter).Rows (Eval.values (evaluate reach) loop.frame statements state)
      (Eval.values (evaluate reach) loop.frame statements state') := by
  -- The general law of evaluation is applied: the statements bind nothing that is guarded, and do
  -- not name the counter.
  have lawful := Coupling.hidden_lawful (loop.secret counter)
  have evaluators := lawful.evaluateWith (lawful.builtins (Coupling.hidden_allowsChanges _)) reach
  have frames : (loop.beside counter).Frames region (· = ·) loop.frame loop.frame :=
    ⟨⟨rfl, seen.1⟩, ⟨rfl, seen.2⟩, .root rfl⟩
  have permitted : (loop.beside counter).Permits loop.frame.scope
      (Node.targetsOfAll statements) := fun name member =>
    .inr (not_guards (fun read =>
      unnamed name read (Node.targetsOfAll_subset_namesOfAll _ member)) counter)
  have spoken : (loop.beside counter).Speaks (Node.namesOfAll statements) := by
    rintro _ member rfl
    exact unnamed _ List.mem_cons_self member
  have steps := evaluators.values lawful frames
    (Node.Similar.refl_list (fun _ => rfl) statements) permitted spoken
  exact steps region (Region.Within.refl region) state state' states

/-- The rounds of the loop and those of its expansion are alike, however many there may be. -/
theorem rounds_alike {span : Span}
    (unnamed : ∀ name ∈ loop.header.reads, name ∉ Node.namesOfAll statements) (rounds : Nat)
    (states : (loop.beside counter).States region state state')
    (seen : region.scopes loop.frame.scope ∧ region.scopes loop.frame.program) :
    (Eval.countedRounds loop.counting
      (fun counter => Store.define loop.frame.scope loop.header.name (.number counter))
      (Action.round (evaluate (reach + 4) (.sequence span statements) loop.frame)) .block rounds
      counter #[] state).LoopsAlike loop.frame.scope loop.header.counter loop.start
    (Eval.conditionalRounds
      (evaluate (reach + 4) (loop.header.condition spans loop.counting.step.direction) loop.frame)
      (Action.round (evaluate (reach + 4)
        (.sequence (spans 9) (loop.header.advance spans ++ statements)) loop.frame)) .block rounds
      #[] state') := by
  -- The induction is on how many rounds there may be; the counter is one step on after each.
  induction rounds generalizing counter region state state' with
  | zero => exact .unfinished
  | succ rounds ih =>
    have counts := counts states.stores
    have tested : evaluate (reach + 4) (loop.header.condition spans loop.counting.step.direction)
        loop.frame state' = .value (.ofBool (loop.counting.goesOn counter)) state' :=
      counts.evaluate_condition
    simp only [Eval.countedRounds, Eval.conditionalRounds, tested, Eval.truth_ofBool]
    cases loop.counting.goesOn counter with
    | false => exact .null (sameBut states)
    | true =>
      let first : State :=
        ⟨state.store.define loop.frame.scope loop.header.name (.number counter), state.host⟩
      let first' : State := ⟨loop.advanced counter state'.store, state'.host⟩
      -- Once the variable is set and the counter advanced, both bodies are the same statements.
      have body : evaluate (reach + 4) (.sequence span statements) loop.frame first =
          (Eval.values (evaluate (reach + 3)) loop.frame statements >>= fun row =>
            Action.makeList row.toArray) first := rfl
      have body' : evaluate (reach + 4)
          (.sequence (spans 9) (loop.header.advance spans ++ statements)) loop.frame state' =
            (Eval.values (evaluate (reach + 3)) loop.frame statements >>= fun row =>
              Action.makeList
                (.number counter :: .number (counter.add loop.counting.step) :: row).toArray)
              first' := counts.list_advance
      have outcomes : (loop.beside (counter.add loop.counting.step)).Outcomes region _ _
          (Eval.values (evaluate (reach + 3)) loop.frame statements first)
          (Eval.values (evaluate (reach + 3)) loop.frame statements first') :=
        values_outcomes unnamed (beside_advanced states) seen
      rw [Eval.round_makeList body, Eval.round_makeList body']
      generalize Eval.values (evaluate (reach + 3)) loop.frame statements first = outcome,
        Eval.values (evaluate (reach + 3)) loop.frame statements first' = outcome' at outcomes
      cases outcomes with
      | unfinished => exact .unfinished
      | cut lax => exact lax.elim
      | @value later row row' after after' grown rows next =>
        -- The two lists of values differ, and are thrown away.
        exact ih ⟨next.stores.discard _ _, next.hosts⟩
          ⟨grown.scopes _ seen.1, grown.scopes _ seen.2⟩
      | @exit later cause cause' after after' grown alike next =>
        cases alike with
        | broke places => exact .null (sameBut next)
        | continued places => exact ih next ⟨grown.scopes _ seen.1, grown.scopes _ seen.2⟩
        | failed alike =>
          obtain rfl := alike.eq fun _ _ same => same
          exact .failed _ (sameBut next)
        | returned alike =>
          obtain ⟨rfl, known⟩ := Coupling.hidden_values.mp alike
          exact .returned (next.stores.closed.value_kept known) (sameBut next)

/-- A counted loop whose header has three numbers goes through its rounds. -/
theorem Counts.evaluate_counted (counts : loop.Counts counter state.store) :
    evaluate (reach + 5) (loop.header.counted spans statements) loop.frame state =
      Eval.countedRounds loop.counting
        (fun counter => Store.define loop.frame.scope loop.header.name (.number counter))
        (Action.round (evaluate (reach + 4) (.sequence (spans 4) statements) loop.frame)) .block
        (reach + 4) counter #[] state := by
  -- The three numbers are evaluated without a change of the state.
  show Eval.forLoop (evaluate (reach + 4)) loop.frame (reach + 4) _ _ _ _ _ _ state = _
  simp only [Eval.forLoop, Eval.stepOf, Action.bind_apply, Eval.number_reference counts.counter,
    Eval.number_reference counts.bound, Eval.number_reference counts.step]

end CountedLoop

section Expansion

variable {header : LoopHeader} {statements : List Node} {frame : Frame} {state : State}
  {first bound step : Number} {spans spans' : Nat → Span} {outcome outcome' : Outcome Exit Value}

/-- What is cut off at the same reaches as something that ends does so, too. -/
theorem Node.Ends.of_unfinished_iff {node node' : Node} (least : Nat)
    (same : ∀ reach, evaluate (reach + least) node frame state = .unfinished ↔
      evaluate (reach + least) node' frame state = .unfinished)
    (ends : node.Ends frame state outcome) : ∃ outcome, node'.Ends frame state outcome := by
  obtain ⟨settled, ended⟩ := ends.from_
  refine ⟨_, fun cut => ends.1 ?_, settled + least, rfl⟩
  rw [← ended (settled + least) (Nat.le_add_right _ _)]
  exact (same settled).mpr cut

/-- Loops that end alike end both, or neither of them does. -/
theorem Outcome.LoopsAlike.unfinished_iff {place : ScopeId} {name : String} {start : Nat}
    (alike : outcome.LoopsAlike place name start outcome') :
    outcome = .unfinished ↔ outcome' = .unfinished := by
  cases alike <;> simp

/-- At any reach that both headers fit into, the loop and its expansion end alike. -/
theorem counted_alike (spans spans' : Nat → Span) (reach : Nat) (sound : state.store.Sound)
    (counts : CountedLoop.Counts ⟨header, frame, ⟨bound, step⟩, state.store.lists.size⟩ first
      state.store)
    (unnamed : ∀ name ∈ header.reads, name ∉ Node.namesOfAll statements)
    (unaware : frame.Unaware header.counter state) :
    (evaluate (reach + 5) (header.counted spans statements) frame state).LoopsAlike frame.scope
      header.counter state.store.lists.size
      (evaluate (reach + 5) (header.expanded spans' step.direction statements) frame state) := by
  let loop : CountedLoop := ⟨header, frame, ⟨bound, step⟩, state.store.lists.size⟩
  -- At first both runs are in the same state, and nothing has been thrown away.
  have states : (loop.beside first).States (frame.region state.store) state state := by
    refine unaware.states sound rfl counts.counter ?_ (Nat.le_refl _)
    intro entry member
    simp only [CountedLoop.secret, List.mem_cons, List.not_mem_nil, or_false] at member
    rcases member with rfl | rfl
    · exact counts.bound
    · exact counts.step
  rw [counts.evaluate_counted]
  exact CountedLoop.rounds_alike unnamed (reach + 4) states ⟨.own, .program⟩

/--
A counted loop over a block is the conditional loop that sets its variable and advances its counter
before the statements of the block, when nothing else names the three variables that its header
reads. Either both loops end or neither does; they end without a value, with the same returned value
or with the same error, and leave states that are the same but for the counter. The store is sound,
as those of all machines are.
-/
theorem counted_expanded (header : LoopHeader) (statements : List Node) (spans spans' : Nat → Span)
    (frame : Frame) (state : State) (sound : state.store.Sound)
    (counter : state.store.binding? frame.scope header.counter = some (.number first))
    (limit : state.store.binding? frame.scope header.bound = some (.number bound))
    (stride : state.store.binding? frame.scope header.step = some (.number step))
    (unnamed : ∀ name ∈ header.reads, name ∉ Node.namesOfAll statements)
    (unaware : ∀ name ∈ header.reads, frame.Unaware name state) :
    ((∃ outcome, (header.counted spans statements).Ends frame state outcome) ↔
      ∃ outcome, (header.expanded spans' step.direction statements).Ends frame state outcome) ∧
    ∀ outcome outcome', (header.counted spans statements).Ends frame state outcome →
      (header.expanded spans' step.direction statements).Ends frame state outcome' →
      outcome.LoopsAlike frame.scope header.counter state.store.lists.size outcome' := by
  have alike (reach : Nat) := counted_alike spans spans' reach sound
    ⟨counter, limit, stride⟩ unnamed (unaware _ List.mem_cons_self)
  refine ⟨⟨?_, ?_⟩, ?_⟩
  · rintro ⟨outcome, ends⟩
    exact ends.of_unfinished_iff 5 fun reach => (alike reach).unfinished_iff
  · rintro ⟨outcome, ends⟩
    exact ends.of_unfinished_iff 5 fun reach => (alike reach).unfinished_iff.symm
  · intro outcome outcome' ends ends'
    obtain ⟨least, settled⟩ := ends.from_
    obtain ⟨least', settled'⟩ := ends'.from_
    -- Both have ended where the greater of the two reaches leaves off.
    have both := alike (max least least')
    rwa [settled _ (by omega), settled' _ (by omega)] at both

end Expansion

/-- The header `i = c TO e STEP s`. -/
def LoopHeader.plain : LoopHeader where
  name := "i"
  counter := "c"
  bound := "e"
  step := "s"
  distinct := by decide
  apart := by decide

/-- The statements `i = i * 10` and `IF i > 10 THEN RETURN i`. -/
def Node.tenfold : List Node :=
  [.assign default "i" (.binary default .mul (.reference default "i") (.int default 10)),
    .conditional default (.test
      (.binary default .greater (.reference default "i") (.int default 10))
      (.returning default (some (.reference default "i"))) .inline .none)]

/-- A state with one scope, in which `c` is 0, `e` is 5 and `s` is 1. -/
def State.counting : State :=
  let store := (Store.empty.addScope none).2.define ⟨0⟩ "c" (.number (.int 0))
  let store := store.define ⟨0⟩ "e" (.number (.int 5))
  { store := store.define ⟨0⟩ "s" (.number (.int 1))
    host := Host.prepared [] [] .gibibyte .none }

/-- The expansion returns 20 in the third round, because the loop does. -/
theorem counted_expanded_returning :
    ∃ after, (LoopHeader.plain.expanded default .less Node.tenfold).Ends (.ofProgram ⟨0⟩ ⟨0⟩)
      .counting (.exit (.returned (.number (.int 20))) after) := by
  have number (value : Int64) (size : Nat) : (Value.number (.int value)).Within size := fun _ => nofun
  have sound : State.counting.store.Sound :=
    (((Store.sound_empty.addScope none).define ⟨0⟩ "c" (number 0 0)).define ⟨0⟩ "e"
      (number 5 0)).define ⟨0⟩ "s" (number 1 0)
  have counter : State.counting.store.binding? ⟨0⟩ "c" = some (.number (.int 0)) := rfl
  have limit : State.counting.store.binding? ⟨0⟩ "e" = some (.number (.int 5)) := rfl
  have stride : State.counting.store.binding? ⟨0⟩ "s" = some (.number (.int 1)) := rfl
  have unnamed : ∀ name ∈ LoopHeader.plain.reads, name ∉ Node.namesOfAll Node.tenfold := by decide
  -- There are no functions and no scripts.
  have unaware (name : String) : (Frame.ofProgram ⟨0⟩ ⟨0⟩).Unaware name .counting :=
    ⟨fun _ made => (nomatch made), fun loaded _ => (nomatch loaded)⟩
  have check : (match evaluate 9 (LoopHeader.plain.counted default Node.tenfold)
      (.ofProgram ⟨0⟩ ⟨0⟩) .counting with
    | .exit (.returned value) _ => decide (value = .number (.int 20))
    | _ => false) = true := by decide +kernel
  have ends : ∃ after, (LoopHeader.plain.counted default Node.tenfold).Ends (.ofProgram ⟨0⟩ ⟨0⟩)
      .counting (.exit (.returned (.number (.int 20))) after) := by
    split at check
    · next value after ended =>
      rw [of_decide_eq_true check] at ended
      exact ⟨after, nofun, 9, ended⟩
    · cases check
  obtain ⟨after, ends⟩ := ends
  have ⟨both, alike⟩ := counted_expanded .plain Node.tenfold default default (.ofProgram ⟨0⟩ ⟨0⟩)
    .counting sound counter limit stride unnamed fun name _ => unaware name
  obtain ⟨outcome, ends'⟩ := both.mp ⟨_, ends⟩
  cases alike _ _ ends ends' with
  | returned kept states => exact ⟨_, ends'⟩

end Scriptlet
