import Scriptlet.Proofs.Session.Agreement
import Scriptlet.Proofs.Session.Text

/-! Programs line by line: running two of them in turn is running their texts as one program. -/

namespace Scriptlet

namespace Eval

/-- The values of constructs in a row are those of the first ones, and then those of the others. -/
theorem values_append (evaluate : Evaluator) (frame : Frame) (front rear : List Node) :
    values evaluate frame (front ++ rear) = (do
      let row ← values evaluate frame front
      let others ← values evaluate frame rear
      return row ++ others) := by
  -- The induction goes along the first ones.
  induction front with
  | nil => simp [values]
  | cons node front ih => simp [values, ih]

/-- A list of constructs in a row, seen at the place where the first of them have their values. -/
theorem list_append (evaluate : Evaluator) (frame : Frame) (front rear : List Node) :
    list evaluate frame (front ++ rear) = (do
      let row ← values evaluate frame front
      let others ← values evaluate frame rear
      Action.makeList (row ++ others).toArray) := by
  simp [list, values_append]

end Eval

namespace Machine

/-- The statements of a program come to their end, and none of them returns or fails. -/
def Completes (reach : Nat) (source : Source) (scope : ScopeId) (machine : Machine) : Prop :=
  ∃ program value state, source.program = .ok program ∧
    evaluate reach program (.ofProgram machine.globals scope) machine.state = .value value state

/--
How a run ends that goes on like a second program after a first one, whose values are in a list of
the second one's machine: with the values of both in one list if the second program completes, and
as that one returns or fails if not.
-/
def EndsInTurn (spans : Span → Span → Prop) (list : ListId) (next : Machine) (reach : Nat)
    (second : Source) (scope : ScopeId) (joined : Ended) : Prop :=
  (next.Completes reach second scope → ∃ other last last' results,
    next.runIn reach second scope = some (.ok (.list other), last') ∧
      joined = some (.ok (.list results), last) ∧ last.Agrees spans last' ∧
      List.Forall₂ (last.state.store.Matches spans last'.state.store)
        (last.state.store.elements results).toList
        ((last'.state.store.elements list).toList ++ (last'.state.store.elements other).toList)) ∧
  (¬ next.Completes reach second scope →
    EndsAlike spans joined (next.runIn reach second scope))

variable {machine : Machine} {reach : Nat} {source : Source} {scope : ScopeId} {span : Span}
  {statements : List Node}

/-- A program is the list of its statements. -/
theorem runIn_of_statements (parsed : source.program = .ok (.sequence span statements)) :
    machine.runIn (reach + 1) source scope = ended machine.globals
      (Action.settle (.ofProgram machine.globals scope)
        (Eval.list (evaluate reach) (.ofProgram machine.globals scope) statements) machine.state) :=
  runIn_of_program parsed

/-- A program completes when all of its statements have values. -/
theorem completes_iff (parsed : source.program = .ok (.sequence span statements)) :
    machine.Completes (reach + 1) source scope ↔ ∃ row state,
      Eval.values (evaluate reach) (.ofProgram machine.globals scope) statements machine.state =
        .value row state := by
  have evaluated : evaluate (reach + 1) (.sequence span statements)
      (.ofProgram machine.globals scope) machine.state =
        (Eval.values (evaluate reach) (.ofProgram machine.globals scope) statements >>= fun row =>
          Action.makeList row.toArray) machine.state := rfl
  simp only [Completes, parsed, Except.ok.injEq, exists_and_left, exists_eq_left']
  rw [evaluated, Action.bind_apply]
  cases Eval.values (evaluate reach) (.ofProgram machine.globals scope) statements
    machine.state with
  | value row state => simp [Action.makeList, Action.bind_apply]
  | exit cause state => simp
  | unfinished => simp

/-- Nothing comes of a program without reach. -/
theorem runIn_zero {program : Node} (parsed : source.program = .ok program) :
    machine.runIn 0 source scope = none :=
  runIn_of_program parsed

/-- Without reach no program completes. -/
theorem not_completes_zero : ¬ machine.Completes 0 source scope := by
  rintro ⟨program, value, state, parsed, evaluated⟩
  cases evaluated

/-- A program whose statements have all their values ends with a list of them. -/
theorem ended_makeList {body : Action Exit (List Value)} {frame : Frame} {state after : State}
    {row : List Value} (globals : ScopeId) (shape : List Value → Array Value)
    (valued : body state = .value row after) :
    ended globals (Action.settle frame (body >>= fun row => Action.makeList (shape row)) state) =
      some (.ok (.list ⟨after.store.lists.size⟩),
        ⟨⟨(after.store.addList (shape row)).2, after.host⟩, globals⟩) := by
  unfold Action.settle
  rw [Action.bind_apply, valued]
  rfl

section

variable {spans : Span → Span → Prop} {start size : Nat} {kept : List (Array Value)}
  {front rear statements statements' : List Node} {state state' : State} {globals : ScopeId}

/-- Statements that are built alike have alike values. -/
theorem values_outcomes (reach : Nat) (globals scope : ScopeId)
    (reflexive : ∀ span, spans span span)
    (alike : List.Forall₂ (Node.Similar spans) front statements)
    (states : (Coupling.moved spans start kept).States size state state') :
    (Coupling.moved spans start kept).Outcomes size
      ((Coupling.moved spans start kept).Exits CallChain.Programs)
      (Coupling.moved spans start kept).Rows
      (Eval.values (evaluate reach) (.ofProgram globals scope) front state)
      (Eval.values (evaluate reach) (.ofProgram globals scope) statements state') := by
  have lawful := Coupling.moved_lawful reflexive start kept
  have evaluators := lawful.evaluateWith
    (lawful.builtins (Coupling.moved_allowsChanges start kept)) reach
  have frames : (Coupling.moved spans start kept).Frames size _ _ _ :=
    Coupling.moved_frames globals scope
  have steps := evaluators.values lawful frames alike (fun _ _ => trivial) fun _ _ => trivial
  exact steps size (Nat.le_refl size) state state' states

/-- Statements that do not complete end alike, whatever would have come behind them. -/
theorem endsAlike_of_no_value (reflexive : ∀ span, spans span span)
    (alike : List.Forall₂ (Node.Similar spans) front statements)
    (states : (Coupling.moved spans start kept).States size state state')
    (early : ∀ row after,
      Eval.values (evaluate reach) (.ofProgram globals scope) statements state' ≠ .value row after)
    (next next' : List Value → Action Exit Value) :
    EndsAlike spans
      (ended globals (Action.settle (.ofProgram globals scope)
        (Eval.values (evaluate reach) (.ofProgram globals scope) front >>= next) state))
      (ended globals (Action.settle (.ofProgram globals scope)
        (Eval.values (evaluate reach) (.ofProgram globals scope) statements >>= next')
        state')) := by
  have outcomes := values_outcomes reach globals scope reflexive alike states
  have frames : (Coupling.moved spans start kept).Frames size _ _ _ :=
    Coupling.moved_frames globals scope
  exact .of_outcomes ((outcomes.bind_of_no_value early).settle frames) globals

/-- A program whose first statements have values goes on with the others. -/
theorem settle_bind_of_value {α : Type} {frame : Frame} {first : Action Exit α}
    {next : α → Action Exit Value} {result : α} {after : State}
    (valued : first state = .value result after) :
    Action.settle frame (first >>= next) state = Action.settle frame (next result) after := by
  unfold Action.settle
  rw [Action.bind_apply, valued]

/-- Statements that have values have alike values when they are built alike. -/
theorem values_of_completed (reach : Nat) (globals scope : ScopeId)
    (reflexive : ∀ span, spans span span)
    (alike : List.Forall₂ (Node.Similar spans) front statements)
    (states : (Coupling.moved spans start kept).States size state state') {row' : List Value}
    {after' : State}
    (valued : Eval.values (evaluate reach) (.ofProgram globals scope) statements state' =
      .value row' after') :
    ∃ row after later, size ≤ later ∧
      Eval.values (evaluate reach) (.ofProgram globals scope) front state = .value row after ∧
      (Coupling.moved spans start kept).Rows later row row' ∧
      (Coupling.moved spans start kept).States later after after' := by
  have outcomes := values_outcomes reach globals scope reflexive alike states
  rw [valued] at outcomes
  generalize Eval.values (evaluate reach) (.ofProgram globals scope) front state = outcome
    at outcomes ⊢
  cases outcomes with
  | value grown rows states => exact ⟨_, _, _, grown, rfl, rows, states⟩
  | cut lax => exact lax.elim

/--
The second of two programs ends in a machine that keeps the list of the first one as their joined
text does in one that never made it: with all values in one list, or as the second one ends.
-/
theorem runIn_joined_rear {joint span' : Span} {rear statements' : List Node}
    {whole second : Source} {row row' : List Value} {after after' : State}
    (reflexive : ∀ span, spans span span)
    (parsed : whole.program = .ok (.sequence joint (front ++ rear)))
    (parsed' : second.program = .ok (.sequence span' statements'))
    (alike : List.Forall₂ (Node.Similar spans) rear statements')
    (valued : Eval.values (evaluate reach) (.ofProgram machine.globals scope) front
      machine.state = .value row after)
    (rows : (Coupling.moved spans 0 []).Rows size row row')
    (states : (Coupling.moved spans 0 []).States size after after') :
    EndsInTurn spans ⟨after'.store.lists.size⟩
      ⟨⟨(after'.store.addList row'.toArray).2, after'.host⟩, machine.globals⟩ (reach + 1) second
      scope (machine.runIn (reach + 1) whole scope) := by
  let list : ListId := ⟨after'.store.lists.size⟩
  let next : Machine := ⟨⟨(after'.store.addList row'.toArray).2, after'.host⟩, machine.globals⟩
  -- From here on the first run is one list behind the second one.
  obtain ⟨stores, hosts⟩ := states
  have count : after.store.lists.size = size := stores.count
  have count' : after'.store.lists.size = size := stores.count'
  have behind : (Coupling.moved spans size [row'.toArray]).States size after next.state :=
    ⟨stores.keepList row'.toArray, hosts⟩
  unfold EndsInTurn
  rw [runIn_of_statements parsed, runIn_of_statements parsed', Eval.list_append,
    settle_bind_of_value valued, completes_iff parsed']
  constructor
  · rintro ⟨others', last', valued'⟩
    obtain ⟨others, last, later, grown, valued, alikeRows, laterStates⟩ :=
      values_of_completed reach machine.globals scope reflexive alike behind valued'
    refine ⟨_, _, _, _, ended_makeList next.globals List.toArray valued',
      ended_makeList machine.globals (fun others => (row ++ others).toArray) valued, ?_, ?_⟩
    · obtain ⟨moved, sameHosts⟩ := laterStates
      have agree := moved.agrees_addList (row ++ others).toArray others'.toArray last.host
        machine.globals
      rw [show last'.host = last.host from sameHosts.symm]
      exact agree
    · -- The list of the first program is still there, and its values match the first ones.
      have moved := laterStates.stores
      have old : list.index < last'.store.lists.size := by
        show after'.store.lists.size < _
        rw [moved.count', count']
        exact Nat.lt_succ_of_le grown
      have keeps : last'.store.elements list = row'.toArray := by
        have kept := moved.keeps 0 Nat.zero_lt_one
        simp only [Nat.add_zero, List.getElem?_cons_zero] at kept
        show (last'.store.lists[after'.store.lists.size]?).getD #[] = row'.toArray
        rw [count', kept, Option.getD_some]
      have shown {value value' : Value} (alike : value.Moved size 1 later value') :=
        moved.matches_addList (row ++ others).toArray others'.toArray alike
      rw [Store.elements_addList, Store.elements_addList_of_lt old, keeps, Store.elements_addList]
      refine List.rel_append (rows.imp ?_) (alikeRows.imp fun _ _ same => shown same)
      intro value value' same
      exact shown (Value.Moved.mono grown (Value.Moved.behind same))
  · intro incomplete
    apply endsAlike_of_no_value reflexive alike behind
    exact fun others last valued' => incomplete ⟨others, last, valued'⟩

end

/--
Programs in turn and joined: where the texts of two programs are one text, on lines of their own,
that text is a program. If the first program completes, the joined one ends as both do in turn; if
it returns or fails, the joined one does too, and nothing of the second program is run.
-/
theorem runIn_joined {whole first second : Source} {before after : Node}
    (joined : whole.text = first.text ++ "\n" ++ second.text)
    (firstProgram : first.program = .ok before) (secondProgram : second.program = .ok after)
    (reached : machine.Reachable) (scope : ScopeId) :
    (∃ program, whole.program = .ok program) ∧ ∀ reach,
      (machine.Completes reach first scope → ∃ list next,
        machine.runIn reach first scope = some (.ok (.list list), next) ∧
          EndsInTurn (Span.Rejoined whole first second) list next reach second scope
            (machine.runIn reach whole scope)) ∧
      (¬ machine.Completes reach first scope →
        EndsAlike (Span.Rejoined whole first second) (machine.runIn reach whole scope)
          (machine.runIn reach first scope)) := by
  obtain ⟨_, _, _, statements, statements', front, rear, rfl, rfl, parsed, fronts, rears⟩ :=
    Source.program_joined joined firstProgram secondProgram
  refine ⟨⟨_, parsed⟩, ?_⟩
  -- At first both runs start in one machine, in which every list is where it is.
  have reflexive : ∀ span, Span.Rejoined whole first second span span := Span.Rejoined.same
  have states : (Coupling.moved (Span.Rejoined whole first second) 0 []).States
      machine.state.store.lists.size machine.state machine.state :=
    ⟨(Store.sound_iff_moved reflexive).mp reached.sound, rfl⟩
  intro reach
  cases reach with
  | zero =>
    refine ⟨fun completes => absurd completes not_completes_zero, fun _ => ?_⟩
    rw [runIn_zero parsed, runIn_zero firstProgram]
    exact .cutOff
  | succ reach =>
    constructor
    · intro completes
      obtain ⟨row', after', valued'⟩ := (completes_iff firstProgram).mp completes
      obtain ⟨row, after, size, grown, valued, rows, laterStates⟩ :=
        values_of_completed reach machine.globals scope reflexive fronts states valued'
      refine ⟨⟨after'.store.lists.size⟩, _, ?_, runIn_joined_rear reflexive parsed secondProgram
        rears valued rows laterStates⟩
      rw [runIn_of_statements firstProgram]
      exact ended_makeList machine.globals List.toArray valued'
    · intro incomplete
      rw [runIn_of_statements parsed, runIn_of_statements firstProgram, Eval.list_append]
      apply endsAlike_of_no_value reflexive fronts states
      exact fun row after valued => incomplete ((completes_iff firstProgram).mpr ⟨row, after, valued⟩)

/-- Whether a program completes can be found out by running it. -/
instance : Decidable (machine.Completes reach source scope) :=
  match parsed : source.program with
  | .error _ => isFalse fun ⟨_, _, _, found, _⟩ => nomatch parsed.symm.trans found
  | .ok program =>
    match run : evaluate reach program (.ofProgram machine.globals scope) machine.state with
    | .value value state => isTrue ⟨program, value, state, parsed, run⟩
    | .exit _ _ => isFalse fun ⟨_, _, _, found, ended⟩ => by
      obtain rfl := Except.ok.inj (parsed.symm.trans found)
      exact nomatch run.symm.trans ended
    | .unfinished => isFalse fun ⟨_, _, _, found, ended⟩ => by
      obtain rfl := Except.ok.inj (parsed.symm.trans found)
      exact nomatch run.symm.trans ended

/-- A machine with one scope beside the global one. -/
def idle : Machine :=
  ((fresh (.prepared [] [] .gibibyte .none)).addScope (some ⟨0⟩)).2

/-- A program that defines a list, and a function that puts an element at its end. -/
def growing : Source :=
  { name := "first", text := "VAR x = [1]\nFUN f() -> APPEND(x, 2)" }

/-- A program that calls the function and returns the list. -/
def grown : Source :=
  { name := "second", text := "f()\nRETURN x" }

/-- The list that the joined program returns is the one that the second program returns in turn. -/
theorem runIn_joined_growing :
    ∃ before after list next, growing.program = .ok before ∧ grown.program = .ok after ∧
      idle.Completes 9 growing ⟨1⟩ ∧
      idle.runIn 9 growing ⟨1⟩ = some (.ok (.list list), next) ∧
      EndsInTurn (Span.Rejoined ⟨"both", "VAR x = [1]\nFUN f() -> APPEND(x, 2)\nf()\nRETURN x"⟩
          growing grown) list next 9 grown ⟨1⟩
        (idle.runIn 9 ⟨"both", "VAR x = [1]\nFUN f() -> APPEND(x, 2)\nf()\nRETURN x"⟩ ⟨1⟩) := by
  have completes : idle.Completes 9 growing ⟨1⟩ := by decide +kernel
  have parses : grown.program.isOk = true := by decide +kernel
  obtain ⟨before, _, _, firstProgram, _⟩ := id completes
  cases secondProgram : grown.program with
  | error error => simp [secondProgram, Except.isOk, Except.toBool] at parses
  | ok after =>
    let both : Source := ⟨"both", "VAR x = [1]\nFUN f() -> APPEND(x, 2)\nf()\nRETURN x"⟩
    have texts : both.text = growing.text ++ "\n" ++ grown.text := by decide
    have joined := runIn_joined texts firstProgram secondProgram
      (.addScope (some ⟨0⟩) (.fresh (.prepared [] [] .gibibyte .none))) ⟨1⟩
    obtain ⟨list, next, run, inTurn⟩ := (joined.2 9).1 completes
    exact ⟨before, after, list, next, firstProgram, rfl, completes, run, inTurn⟩

end Machine

end Scriptlet
