import Scriptlet.Console
import Scriptlet.Proofs.Eval.Provenance
import Scriptlet.Proofs.Session.Joined

/-! Pipe mode: what a command shows of the value that its script has come to. -/

namespace Scriptlet

/-- Where a program ends that does not fail: behind its last statement, or at a `RETURN`. -/
inductive Finish where
  | completed (last : Value)
  | returned (value : Value)

/--
The value that pipe mode shows of a finished program. What a `RETURN` hands over is taken for the
list of all values if it is a list, so that only its last element is shown.
-/
def Finish.shown? (store : Store) : Finish → Option Value
  | .completed last => some last
  | .returned (.list list) => (store.elements list).back?
  | .returned value => some value

namespace Machine

/--
A program finishes in a scope of a machine: all of its statements have values, one after another,
or one of them returns.
-/
inductive Finishes (source : Source) (scope : ScopeId) (machine : Machine) :
    Nat → Finish → State → Prop where
  | completed {reach : Nat} {span : Span} {front : List Node} {last : Node} {row : List Value}
    {value : Value} {before after : State}
    (parsed : source.program = .ok (.sequence span (front ++ [last])))
    (fronts : Eval.values (evaluate reach) (.ofProgram machine.globals scope) front machine.state =
      .value row before)
    (valued : evaluate reach last (.ofProgram machine.globals scope) before = .value value after) :
    Finishes source scope machine (reach + 1) (.completed value)
      { after with store := (after.store.addList (row ++ [value]).toArray).2 }
  | returned {reach : Nat} {program : Node} {value : Value} {after : State}
    (parsed : source.program = .ok program)
    (ended : evaluate reach program (.ofProgram machine.globals scope) machine.state =
      .exit (.returned value) after) :
    Finishes source scope machine reach (.returned value) after

variable {machine next : Machine} {reach : Nat} {source : Source} {scope : ScopeId} {value : Value}
  {finish : Finish} {state : State}

/-- The values of a row of constructs are those of the front ones and that of the last one. -/
theorem values_concat {evaluate : Evaluator} {frame : Frame} {front : List Node} {last : Node}
    {row : List Value} {before after : State} :
    Eval.values evaluate frame (front ++ [last]) before = .value row after ↔
      ∃ fronts between value, Eval.values evaluate frame front before = .value fronts between ∧
        evaluate last frame between = .value value after ∧ row = fronts ++ [value] := by
  -- Whatever ends early ends both of them early.
  rw [Eval.values_append, Action.bind_apply]
  cases Eval.values evaluate frame front before with
  | exit cause state => simp
  | unfinished => simp
  | value fronts between =>
    simp only [Eval.values, Action.bind_apply]
    cases valued : evaluate last frame between with
    | exit cause state => simp [valued]
    | unfinished => simp [valued]
    | value value state =>
      simp only [Action.pure_apply, Outcome.value.injEq]
      constructor
      · rintro ⟨rfl, rfl⟩
        exact ⟨fronts, between, value, ⟨rfl, rfl⟩, valued, rfl⟩
      · rintro ⟨_, _, _, ⟨rfl, rfl⟩, found, rfl⟩
        cases valued.symm.trans found
        exact ⟨rfl, rfl⟩

/-- What a run yields whose program finishes: a new list of all values, or what was returned. -/
theorem Finishes.runIn (finished : machine.Finishes source scope reach finish state) :
    ∃ value, machine.runIn reach source scope = some (.ok value, ⟨state, machine.globals⟩) ∧
      Console.lastValue? state.store value = finish.shown? state.store := by
  cases finished with
  | @completed reach span front last row value before after parsed fronts valued =>
    have values := values_concat.mpr ⟨row, before, value, fronts, valued, rfl⟩
    refine ⟨.list ⟨after.store.lists.size⟩, ?_, ?_⟩
    · rw [runIn_of_statements parsed]
      exact ended_makeList machine.globals List.toArray values
    · -- The list is the new one, and the last value is its last element.
      show ((after.store.addList (row ++ [value]).toArray).2.elements _).back? = some value
      rw [Store.elements_addList]
      simp
  | @returned reach program value after parsed ended =>
    refine ⟨value, ?_, ?_⟩
    · rw [runIn_of_program parsed, Eval.runProgram, Action.settle, ended]
      rfl
    · cases value <;> rfl

/-- A program whose run has a value has finished. -/
theorem exists_finishes (succeeded : machine.runIn reach source scope = some (.ok value, next)) :
    ∃ finish state, machine.Finishes source scope reach finish state := by
  cases parsed : source.program with
  | error error =>
    simp [Machine.runIn, parsed] at succeeded
  | ok program =>
    cases ended : evaluate reach program (.ofProgram machine.globals scope) machine.state with
    | unfinished =>
      simp [runIn_of_program parsed, Eval.runProgram, Action.settle, ended, Machine.ended]
        at succeeded
    | exit cause state =>
      cases cause with
      | returned value => exact ⟨.returned value, state, .returned parsed ended⟩
      | _ =>
        simp [runIn_of_program parsed, Eval.runProgram, Action.settle, ended, Machine.ended]
          at succeeded
    | value result state =>
      -- A program that does not return has a value for every statement, so for the last one too.
      obtain ⟨span, front, last, rfl⟩ := Source.statements_of_program parsed
      have completes : machine.Completes reach source scope := ⟨_, result, state, parsed, ended⟩
      cases reach with
      | zero => exact absurd completes not_completes_zero
      | succ reach =>
        obtain ⟨row, after, values⟩ := (completes_iff parsed).mp completes
        obtain ⟨fronts, before, value, fronted, valued, rfl⟩ := values_concat.mp values
        exact ⟨_, _, .completed parsed fronted valued⟩

end Machine

/-- What a console shows of a script that ends in a state, perhaps with a value to be shown. -/
def Console.shows (state : State) (shown? : Option Value) : Option Departure :=
  let screen := Screen.blank.replay state.host.transcript.toList
  match shown? with
  | none => some { code := 0, screen }
  | some value =>
    (state.store.text? value).map fun text => { code := 0, screen := screen.put (text ++ "\n") }

/--
What comes of a script on the command line that does not fail. Its program finishes, and what it
wrote is shown; in pipe mode that is followed by one line, the text of the value of the last
statement, or of what a `RETURN` handed over. Only of a list that a `RETURN` hands over the last
element is shown instead, and nothing of an empty one.
-/
theorem Console.script_succeeds {reach : Nat} {surroundings : Surroundings} {source : Source}
    {scope : ScopeId} {machine : Machine}
    (opened : (Machine.fresh surroundings.host).addScope
      (Machine.fresh surroundings.host).globals = (scope, machine)) :
    (∀ departure, Console.script reach surroundings source false = some departure →
      departure.code = 0 → ∃ finish state, machine.Finishes source scope reach finish state) ∧
    ∀ finish state, machine.Finishes source scope reach finish state →
      Console.script reach surroundings source false = Console.shows state none ∧
        Console.script reach surroundings source true =
          Console.shows state (finish.shown? state.store) := by
  have run : (Machine.fresh surroundings.host).run reach source =
      machine.runIn reach source scope := by
    rw [Machine.run_eq_runIn, opened]
  constructor
  · intro departure shown code
    -- Only a run with a value ends with the code zero.
    rw [Console.script, run] at shown
    cases ended : machine.runIn reach source scope with
    | none => simp [ended] at shown
    | some outcome =>
      obtain ⟨result, next⟩ := outcome
      cases result with
      | error error =>
        simp only [ended, Option.some.injEq] at shown
        simp [← shown] at code
      | ok value => exact Machine.exists_finishes ended
  · intro finish state finished
    obtain ⟨value, succeeded, last⟩ := finished.runIn
    rw [Console.script, Console.script, run, succeeded]
    refine ⟨rfl, ?_⟩
    cases shown : finish.shown? state.store with
    | none => simp [Console.shows, last, shown]
    | some value => simp [Console.shows, last, shown]

namespace Machine

variable {machine : Machine} {reach : Nat} {source : Source} {scope : ScopeId}

/-- What a program returns that a `RETURN` ends, and the state that it leaves. -/
def returned? (machine : Machine) (reach : Nat) (source : Source) (scope : ScopeId) :
    Option (Value × State) :=
  match source.program with
  | .error _ => none
  | .ok program =>
    match evaluate reach program (.ofProgram machine.globals scope) machine.state with
    | .exit (.returned value) state => some (value, state)
    | _ => none

/-- A program that is ended by a `RETURN` finishes with what that hands over. -/
theorem exists_of_returned? {seen : Value × State → Bool}
    (check : (machine.returned? reach source scope).any seen = true) :
    ∃ value state, machine.Finishes source scope reach (.returned value) state ∧
      seen (value, state) = true := by
  obtain ⟨⟨value, state⟩, found, holds⟩ := (Option.any_eq_true _ _).mp check
  refine ⟨value, state, ?_, holds⟩
  unfold returned? at found
  cases parsed : source.program with
  | error error => simp [parsed] at found
  | ok program =>
    simp only [parsed] at found
    split at found
    · rename_i ended
      cases found
      exact .returned parsed ended
    · cases found

end Machine

/-- A console without input and without files. -/
def Surroundings.bare : Surroundings := { input := [], files := fun _ => none, memory := .gibibyte }

/-- The scope of a script on a bare console, and the machine that it runs on. -/
def Surroundings.bareStart : ScopeId × Machine :=
  (Machine.fresh bare.host).addScope (Machine.fresh bare.host).globals

/-- A script that returns a list of two numbers. -/
def returningList : Source := { name := Console.scriptName, text := "RETURN [1, 2]" }

/-- What the script finishes with is the list. -/
theorem returningList_finishes :
    ∃ value state, Surroundings.bareStart.2.Finishes returningList Surroundings.bareStart.1 9
        (.returned value) state ∧ state.store.text? value = some "[1, 2]" := by
  have check : (Surroundings.bareStart.2.returned? 9 returningList Surroundings.bareStart.1).any
      (fun found => found.2.store.text? found.1 = some "[1, 2]") = true := by decide +kernel
  obtain ⟨value, state, finished, text⟩ := Machine.exists_of_returned? check
  exact ⟨value, state, finished, of_decide_eq_true text⟩

/-- What pipe mode shows of the script is told by how it finishes. -/
theorem Console.script_succeeds_returning :
    ∃ value state, Surroundings.bareStart.2.Finishes returningList Surroundings.bareStart.1 9
        (.returned value) state ∧
      Console.script 9 .bare returningList true =
        Console.shows state (Finish.shown? state.store (.returned value)) := by
  obtain ⟨value, state, finished, -⟩ := returningList_finishes
  exact ⟨value, state, finished, ((Console.script_succeeds rfl).2 _ state finished).2⟩

/-- The value that a `RETURN` hands over need not be what pipe mode shows: here it is a list. -/
theorem Console.pipeMode_hides_list :
    ∃ value state, Surroundings.bareStart.2.Finishes returningList Surroundings.bareStart.1 9
        (.returned value) state ∧
      state.store.text? value = some "[1, 2]" ∧
      (Console.script 9 .bare returningList true).map (·.screen.output) = some "2\n" := by
  obtain ⟨value, state, finished, text⟩ := returningList_finishes
  exact ⟨value, state, finished, text, by decide +kernel⟩

end Scriptlet
