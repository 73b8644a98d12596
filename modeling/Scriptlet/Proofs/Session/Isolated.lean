import Scriptlet.Proofs.Eval.FrameLaw
import Scriptlet.Proofs.Eval.Provenance
import Scriptlet.Proofs.Eval.Shifted

/-! Programs are isolated: what one does is independent of those that were run before it. -/

namespace Scriptlet

namespace Store

/--
A store in which nothing was made but the global scope, whose variables are what they are in every
store where more has been made.
-/
structure Bare (store : Store) : Prop where
  globals : ∃ globals, store.scopes = #[globals] ∧ ∀ gap, globals.Shifted gap globals
  lists : store.lists = #[]
  closures : store.closures = #[]

variable {store bare : Store}

/-- A global variable may get a value that is no list and no function of a program. -/
theorem Bare.define {name : String} {value : Value} (held : store.Bare)
    (plain : ∀ gap, value.Shifted gap value) : (store.define ⟨0⟩ name value).Bare := by
  obtain ⟨⟨globals, scopes, same⟩, lists, closures⟩ := held
  refine ⟨⟨{ globals with bindings := globals.bindings.insert name value }, ?_, ?_⟩, lists,
    closures⟩
  · simp [Store.define, scopes, Array.modify, Array.modifyM]
  · intro gap
    refine ⟨(same gap).parent, ?_⟩
    intro other
    rw [Std.ExtTreeMap.getElem?_insert]
    split
    · exact .some (plain gap)
    · exact (same gap).bindings other

/-- The global variables hold no lists and no functions of programs at first. -/
theorem bare_addGlobals : Store.empty.addGlobals.2.Bare := by
  have plain : ∀ entry ∈ initialVariables, ∀ gap, entry.2.Shifted gap entry.2 := by
    intro entry member gap
    simp only [initialVariables, List.mem_append, List.mem_cons, List.not_mem_nil, or_false,
      List.mem_flatMap, List.mem_map] at member
    rcases member with (rfl | rfl | rfl | rfl) | ⟨builtin, _, name, _, rfl⟩
    · exact .number _
    · exact .number _
    · exact .number _
    · exact .number _
    · exact .builtin builtin
  apply List.foldlRecOn
  · refine ⟨⟨_, rfl, fun gap => ⟨.none, ?_⟩⟩, rfl, rfl⟩
    intro name
    simp only [Std.ExtTreeMap.getElem?_empty]
    exact .none
  · intro store held entry member
    exact held.define (plain entry member)

/-- How much more has been made in a store than the global scope. -/
def gap (store : Store) : Gap where
  scopes := store.scopes.size - 1
  lists := store.lists.size
  closures := store.closures.size

/-- A store with the same global variables as a bare one is that one with more made in it. -/
theorem Bare.shifted (held : bare.Bare) (same : store.scopes[0]? = bare.scopes[0]?) :
    bare.Shifted store.gap store := by
  obtain ⟨⟨globals, scopes, shifted⟩, lists, closures⟩ := held
  have first : store.scopes[0]? = some globals := by simpa [scopes] using same
  have some : 0 < store.scopes.size := (Array.getElem?_eq_some_iff.mp first).1
  constructor
  case globals => simp [scopes]
  case scopeCount =>
    simp only [scopes, List.size_toArray, List.length_singleton, Gap.scope, Nat.one_ne_zero,
      ↓reduceIte, gap]
    omega
  case listCount => simp [lists, gap]
  case closureCount => simp [closures, gap]
  case scopes =>
    -- Behind the global scope there is none in both stores.
    intro index
    cases index with
    | zero =>
      simp only [Gap.scope, ↓reduceIte, first, scopes]
      exact .some (shifted store.gap)
    | succ index =>
      have behind : store.scopes.size ≤ store.gap.scope (index + 1) := by
        simp only [Gap.scope, gap, Nat.succ_ne_zero, ↓reduceIte]
        omega
      rw [Array.getElem?_eq_none behind, Array.getElem?_eq_none (by simp [scopes])]
      exact .none
  case lists =>
    intro index
    rw [Array.getElem?_eq_none (by simp [lists]), Array.getElem?_eq_none (by simp [gap])]
    exact .none
  case closures =>
    intro index
    rw [Array.getElem?_eq_none (by simp [closures]), Array.getElem?_eq_none (by simp [gap])]
    exact .none

end Store

namespace Machine

/-- Machines on which programs were run one after another, beside whatever hosts. -/
inductive Ran : Machine → Prop where
  | fresh (host : Host) : Ran (.fresh host)
  | changeHost {machine : Machine} (host : Host) (ran : Ran machine) :
    Ran { machine with state.host := host }
  | run {machine next : Machine} {reach : Nat} {source : Source}
    {result : Except ProgramError Value} (ran : Ran machine)
    (ended : machine.run reach source = some (result, next)) : Ran next

/--
Two programs that end in the same way: with results that are displayed the same, or with one error,
and with their hosts in one state.
-/
inductive EndsSame : Ended → Ended → Prop where
  | cutOff : EndsSame none none
  | value {value value' : Value} {machine machine' : Machine}
    (text : machine.state.store.text? value = machine'.state.store.text? value')
    (quoted : machine.state.store.quoted? value = machine'.state.store.quoted? value')
    (hosts : machine.state.host = machine'.state.host) :
    EndsSame (some (.ok value, machine)) (some (.ok value', machine'))
  | error {error : ProgramError} {machine machine' : Machine}
    (hosts : machine.state.host = machine'.state.host) :
    EndsSame (some (.error error, machine)) (some (.error error, machine'))

/-- The global scope is the first one, and its variables are those that every program finds. -/
structure Original (machine : Machine) : Prop where
  globals : machine.globals = ⟨0⟩
  bindings : machine.state.store.scopes[0]? = Store.empty.addGlobals.2.scopes[0]?

variable {machine next : Machine} {reach : Nat} {source : Source} {scope : ScopeId}
  {result : Except ProgramError Value}

/-- What is left of a machine when a program has ended is the state that its evaluation leaves. -/
theorem exists_of_runIn (finished : machine.runIn reach source scope = some (result, next)) :
    next.globals = machine.globals ∧ (next = machine ∨ ∃ program,
      (evaluate reach program (.ofProgram machine.globals scope) machine.state).after? =
        some next.state) := by
  cases parsed : source.program with
  | error error =>
    unfold Machine.runIn at finished
    rw [parsed] at finished
    cases finished
    exact ⟨rfl, .inl rfl⟩
  | ok program =>
    obtain ⟨same, after⟩ := after?_of_runIn parsed finished
    exact ⟨same, .inr ⟨program, after⟩⟩

/-- No program changes the global variables. -/
theorem Original.runIn (original : machine.Original) (inner : scope ≠ ⟨0⟩)
    (finished : machine.runIn reach source scope = some (result, next)) : next.Original := by
  obtain ⟨same, rfl | ⟨program, after⟩⟩ := exists_of_runIn finished
  · exact original
  · refine ⟨same.trans original.globals, ?_⟩
    obtain ⟨⟨globals, scopes, -⟩, -, -⟩ := Store.bare_addGlobals
    have first : Store.empty.addGlobals.2.scopes[0]? = some globals := by simp [scopes]
    rw [first]
    exact (evaluate_keepsScopesBut after).others ⟨0⟩ globals inner.symm
      (original.bindings.trans first)

/-- A new scope inside the global one is not the global one. -/
theorem Original.addScope (original : machine.Original) :
    (machine.addScope machine.globals).2.Original ∧
      (machine.addScope machine.globals).1 ≠ ⟨0⟩ := by
  obtain ⟨⟨globals, scopes, -⟩, -, -⟩ := Store.bare_addGlobals
  have first : machine.state.store.scopes[0]? = some globals :=
    original.bindings.trans (by simp [scopes])
  have some : 0 < machine.state.store.scopes.size := (Array.getElem?_eq_some_iff.mp first).1
  refine ⟨⟨original.globals, ?_⟩, ?_⟩
  · rw [← original.bindings]
    show (machine.state.store.scopes.push _)[0]? = _
    rw [Array.getElem?_push_lt some, Array.getElem?_eq_getElem]
  · intro same
    have index : machine.state.store.scopes.size = 0 := congrArg ScopeId.index same
    omega

/-- However many programs were run, the global variables are what they were. -/
theorem Ran.original (ran : machine.Ran) : machine.Original := by
  induction ran with
  | fresh host => exact ⟨rfl, rfl⟩
  | changeHost host ran ih => exact ⟨ih.globals, ih.bindings⟩
  | @run machine next reach source result ran ended ih =>
    rw [run_eq_runIn] at ended
    obtain ⟨original, inner⟩ := ih.addScope
    exact original.runIn inner ended

/-- Programs end in the same way when their runs go on alike in stores with more made in one. -/
theorem EndsSame.of_outcomes {gap : Store.Gap} {outcome outcome' : Outcome EvalError Value}
    (alike : (Coupling.shifted gap).Outcomes ()
      ((Coupling.shifted gap).Errors CallChain.Programs) (Coupling.shifted gap).Values outcome
      outcome') (globals : ScopeId) :
    EndsSame (ended globals outcome) (ended globals outcome') := by
  cases alike with
  | unfinished => exact .cutOff
  | cut lax => exact lax.elim
  | exit grown same states =>
    obtain rfl := EvalError.Similar.eq (fun _ _ => CallChain.Programs.eq) same
    exact .error states.hosts
  | value grown same states =>
    have text := states.stores.text same
    refine .value text ?_ states.hosts
    unfold Store.quoted?
    rw [text, Store.quote_of_similar same]

/--
Runs are isolated: whatever programs were run on a machine, the next one ends as it does on a new
machine with the same host.
-/
theorem run_isolated (ran : machine.Ran) (reach : Nat) (source : Source) :
    EndsSame ((fresh machine.state.host).run reach source) (machine.run reach source) := by
  obtain ⟨globals, bindings⟩ := ran.original
  obtain ⟨⟨store, host⟩, _⟩ := machine
  subst globals
  rw [run_eq_runIn, run_eq_runIn]
  cases parsed : source.program with
  | error error =>
    unfold Machine.runIn
    rw [parsed]
    exact .error rfl
  | ok program =>
    rw [runIn_of_program parsed, runIn_of_program parsed]
    -- The scopes of the two programs correspond, and so does all that they see.
    have shifted := Store.bare_addGlobals.shifted bindings
    have root : ScopeId.Shifted store.gap ⟨0⟩ ⟨0⟩ := rfl
    obtain ⟨inner, enclosed⟩ := shifted.enclose root
    have lawful := Coupling.shifted_lawful store.gap
    have evaluators := lawful.evaluateWith
      (lawful.builtins (Coupling.shifted_allowsChanges store.gap)) reach
    have runs : (Coupling.shifted store.gap).Steps () _ _ _ _ :=
      evaluators.runProgram ⟨0⟩ ⟨0⟩ (Node.Similar.refl (fun _ => rfl) program) inner
        fun _ _ => trivial
    exact .of_outcomes (runs () trivial ⟨_, host⟩ ⟨_, host⟩ ⟨enclosed, rfl⟩) ⟨0⟩

/-- A program that shadows global variables, makes lists and a function, and then fails. -/
def shadowing : Source :=
  { name := "first"
    text := "VAR TRUE = 0\nVAR PRINT = [1]\nAPPEND(PRINT, PRINT)\nFUN f() -> f\nx" }

/-- A program that prints a global variable. -/
def printing : Source :=
  { name := "second", text := "PRINT(TRUE)" }

/-- The second program prints what it prints on a new machine. -/
theorem run_isolated_shadowing :
    ∃ error machine value next, (fresh (.prepared [] [] .gibibyte .none)).run 9 shadowing =
        some (.error error, machine) ∧
      machine.Ran ∧ machine.run 9 printing = some (.ok value, next) ∧
      next.state.host.lines = ["1"] ∧
      EndsSame ((fresh machine.state.host).run 9 printing) (machine.run 9 printing) := by
  have check : ((fresh (.prepared [] [] .gibibyte .none)).run 9 shadowing).any (fun ended =>
      !ended.1.isOk && (ended.2.run 9 printing).any fun last =>
        last.1.isOk && last.2.state.host.lines == ["1"]) = true := by
    decide +kernel
  obtain ⟨⟨result, machine⟩, first, seen⟩ := (Option.any_eq_true _ _).mp check
  obtain ⟨failed, seen⟩ := Bool.and_eq_true_iff.mp seen
  obtain ⟨⟨result', next⟩, second, seen⟩ := (Option.any_eq_true _ _).mp seen
  obtain ⟨fine, shown⟩ := Bool.and_eq_true_iff.mp seen
  have ran : machine.Ran := .run (.fresh _) first
  cases result with
  | ok value => cases failed
  | error error =>
    cases result' with
    | error error => cases fine
    | ok value =>
      exact ⟨error, machine, value, next, first, ran, second, eq_of_beq shown,
        run_isolated ran 9 printing⟩

end Machine

end Scriptlet
