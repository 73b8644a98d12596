import Scriptlet.Machine
import Scriptlet.Proofs.Eval.Moved

/-! Machines without dangling lists: every list that one comes across is there. -/

namespace Scriptlet

/-- A value that is no list beyond so many. -/
def Value.Within (size : Nat) (value : Value) : Prop :=
  ∀ list, value = .list list → list.index < size

/-- A store in which every list that a variable or another list holds is there. -/
structure Store.Sound (store : Store) : Prop where
  bindings (scope : ScopeId) (name : String) (value : Value)
    (bound : store.binding? scope name = some value) : value.Within store.lists.size
  elements (list : ListId) (value : Value) (member : value ∈ store.elements list) :
    value.Within store.lists.size

/-- A machine with a sound store. -/
def Machine.Sound (machine : Machine) : Prop :=
  machine.state.store.Sound

/--
The machines that there are: one that has run nothing yet, one that starts on the store of another
one, and whatever becomes of a machine whose host makes scopes and lists, defines variables, copies
them, runs programs, or changes itself.
-/
inductive Machine.Reachable : Machine → Prop where
  | fresh (host : Host) : Machine.Reachable (.fresh host)
  | start {machine : Machine} (host : Host) (reached : machine.Reachable) :
    Machine.Reachable (.start machine.state.store host)
  | addScope {machine : Machine} (parent : Option ScopeId) (reached : machine.Reachable) :
    Machine.Reachable (machine.addScope parent).2
  | addList {machine : Machine} {elements : Array Value} (reached : machine.Reachable)
    (known : ∀ value ∈ elements, value.Within machine.state.store.lists.size) :
    Machine.Reachable
      { machine with state.store := (machine.state.store.addList elements).2 }
  | define {machine : Machine} {value : Value} (scope : ScopeId) (name : String)
    (reached : machine.Reachable) (known : value.Within machine.state.store.lists.size) :
    Machine.Reachable (machine.define scope name value)
  | copyVariable {machine next : Machine} {scope target : ScopeId} {name copyName : String}
    (reached : machine.Reachable)
    (copied : machine.copyVariable scope name target copyName = some next) :
    Machine.Reachable next
  | runIn {machine next : Machine} {reach : Nat} {source : Source} {scope : ScopeId}
    {result : Except ProgramError Value} (reached : machine.Reachable)
    (ended : machine.runIn reach source scope = some (result, next)) : Machine.Reachable next
  | changeHost {machine : Machine} (host : Host) (reached : machine.Reachable) :
    Machine.Reachable { machine with state.host := host }

variable {store : Store} {size : Nat} {value : Value}

/-- No list has moved to another place when nothing has moved. -/
theorem Value.moved_self : value.Moved 0 0 size value ↔ value.Within size := by
  constructor
  · rintro alike list rfl
    cases alike with
    | list places => exact places.1
  · intro known
    cases value with
    | list list => exact .list ⟨known list rfl, rfl⟩
    | number number => exact .number number
    | text text => exact .text text
    | closure closure => exact .closure rfl
    | builtin builtin => exact .builtin builtin

namespace Store

/-- A store is sound when it corresponds to itself. -/
theorem sound_iff_moved {spans : Span → Span → Prop} (reflexive : ∀ span, spans span span) :
    store.Sound ↔ store.Moved spans 0 [] store.lists.size store := by
  constructor
  · intro sound
    constructor
    case count => rfl
    case count' => rfl
    case bound => exact Nat.zero_le _
    case keeps => exact fun place inside => absurd inside (Nat.not_lt_zero place)
    case elements =>
      rintro list list' ⟨inside, same⟩
      obtain rfl : list' = list := congrArg ListId.mk same
      rw [List.forall₂_same]
      intro value member
      exact Value.moved_self.mpr (sound.elements list' value (Array.mem_toList_iff.mp member))
    case closures =>
      rw [List.forall₂_same]
      exact fun closure _ => ⟨rfl, rfl, rfl, Node.Similar.refl reflexive closure.body, rfl⟩
    case scopes =>
      rw [List.forall₂_same]
      intro scope member
      obtain ⟨place, inside, found⟩ := List.mem_iff_getElem.mp member
      refine ⟨rfl, ?_⟩
      intro name
      cases bound : scope.bindings[name]? with
      | none => exact .none
      | some value =>
        -- The scope is one of those that can be asked for the variable.
        have present : store.scopes[place]? = some scope := by
          rw [← Array.getElem?_toList, List.getElem?_eq_getElem inside, found]
        have shown : store.binding? ⟨place⟩ name = some value := by
          simp only [binding?, present, Option.bind_some, bound]
        exact .some (Value.moved_self.mpr (sound.bindings ⟨place⟩ name value shown))
  · intro moved
    constructor
    · intro scope name value bound
      have related := moved.binding? scope name
      rw [bound] at related
      cases related with
      | some same => exact Value.moved_self.mp same
    · intro list value member
      by_cases inside : list.index < store.lists.size
      · have row := moved.elements list list ⟨inside, rfl⟩
        rw [List.forall₂_same] at row
        exact Value.moved_self.mp (row value (Array.mem_toList_iff.mpr member))
      · -- A list that is not there has no elements.
        simp [elements, Array.getElem?_eq_none (Nat.not_lt.mp inside)] at member

/-- A store that corresponds to itself is sound, however many lists it has. -/
theorem Moved.sound {spans : Span → Span → Prop} (reflexive : ∀ span, spans span span)
    (moved : store.Moved spans 0 [] size store) : store.Sound := by
  have count := moved.count
  subst count
  exact (sound_iff_moved reflexive).mpr moved

namespace Sound

/-- A sound store corresponds to itself. -/
theorem moved (sound : store.Sound) : store.Moved (· = ·) 0 [] store.lists.size store :=
  (sound_iff_moved fun _ => rfl).mp sound

/-- A new scope has no variables. -/
theorem addScope (sound : store.Sound) (parent : Option ScopeId) :
    (store.addScope parent).2.Sound :=
  (sound.moved.addScope parent).2.sound fun _ => rfl

/-- A variable may get every value that is there. -/
theorem define (sound : store.Sound) (scope : ScopeId) (name : String)
    (known : value.Within store.lists.size) : (store.define scope name value).Sound :=
  (sound.moved.define scope name (Value.moved_self.mpr known)).sound fun _ => rfl

/-- A list may be made of all values that are there. -/
theorem addList (sound : store.Sound) {elements : Array Value}
    (known : ∀ value ∈ elements, value.Within store.lists.size) :
    (store.addList elements).2.Sound := by
  have row : List.Forall₂ (Value.Moved 0 0 store.lists.size) elements.toList elements.toList :=
    List.forall₂_same.mpr fun value member =>
      Value.moved_self.mpr (known value (Array.mem_toList_iff.mp member))
  exact (sound.moved.addList row).2.sound fun _ => rfl

/-- A variable that is there has a value that is there. -/
theorem lookup (sound : store.Sound) {scope : ScopeId} {name : String}
    (found : store.lookup scope name = some value) : value.Within store.lists.size := by
  have related := sound.moved.lookup scope name
  rw [found] at related
  cases related with
  | some same => exact Value.moved_self.mp same

/-- The copy of a value that is there is there. -/
theorem copy (sound : store.Sound) (known : value.Within store.lists.size) :
    (store.copy value).2.Sound ∧
      (store.copy value).1.Within (store.copy value).2.lists.size := by
  -- Only the copy of a list is something new.
  cases value with
  | list list =>
    have made := sound.addList fun value member => sound.elements list value member
    refine ⟨made, ?_⟩
    intro fresh same
    obtain rfl : ⟨store.lists.size⟩ = fresh := Value.list.inj same
    show store.lists.size < (store.lists.push (store.elements list)).size
    rw [Array.size_push]
    omega
  | number number => exact ⟨sound, known⟩
  | text text => exact ⟨sound, known⟩
  | closure closure => exact ⟨sound, known⟩
  | builtin builtin => exact ⟨sound, known⟩

/-- Variables that hold no list may be defined in any store. -/
theorem defineAll (scope : ScopeId) (entries : List (String × Value))
    (plain : ∀ entry ∈ entries, ∀ size, entry.2.Within size) :
    ∀ store : Store, store.Sound →
      (entries.foldl (fun store entry => store.define scope entry.1 entry.2) store).Sound := by
  induction entries with
  | nil => exact fun store sound => sound
  | cons entry rest ih =>
    intro store sound
    rw [List.forall_mem_cons] at plain
    exact ih plain.2 _ (sound.define scope entry.1 (plain.1 store.lists.size))

/-- The global variables hold no list at first. -/
theorem addGlobals (sound : store.Sound) : store.addGlobals.2.Sound := by
  have plain : ∀ entry ∈ initialVariables, ∀ size, entry.2.Within size := by
    intro entry member size list same
    simp only [initialVariables, List.mem_append, List.mem_cons, List.not_mem_nil, or_false,
      List.mem_flatMap, List.mem_map] at member
    rcases member with (rfl | rfl | rfl | rfl) | ⟨builtin, _, name, _, rfl⟩ <;> cases same
  exact defineAll _ _ plain _ (sound.addScope none)

end Sound

/-- A store in which nothing was made is sound. -/
theorem sound_empty : Store.empty.Sound where
  bindings := by
    intro scope name value bound
    simp [binding?, empty] at bound
  elements := by
    intro list value member
    simp [elements, empty] at member

end Store

namespace Machine

variable {machine next : Machine} {reach : Nat} {source : Source} {scope : ScopeId}

/-- What comes of a program whose run has an outcome. -/
def ended (globals : ScopeId) : Outcome EvalError Value → Ended
  | .value value state => some (.ok value, ⟨state, globals⟩)
  | .exit error state => some (.error (.failed error), ⟨state, globals⟩)
  | .unfinished => none

/-- A source with a program runs that program. -/
theorem runIn_of_program {program : Node} (parsed : source.program = .ok program) :
    machine.runIn reach source scope = ended machine.globals
      (Eval.runProgram (evaluate reach) program machine.globals scope machine.state) := by
  simp only [runIn, parsed]
  cases Eval.runProgram (evaluate reach) program machine.globals scope machine.state <;> rfl

/-- A program leaves a sound machine behind, and its result is there. -/
theorem Sound.runIn {result : Except ProgramError Value} (sound : machine.Sound)
    (finished : machine.runIn reach source scope = some (result, next)) :
    next.Sound ∧ ∀ value, result = .ok value → value.Within next.state.store.lists.size := by
  cases parsed : source.program with
  | error error =>
    unfold Machine.runIn at finished
    rw [parsed] at finished
    cases finished
    exact ⟨sound, nofun⟩
  | ok program =>
    -- The run is put beside itself.
    have reflexive : ∀ span : Span, span = span := fun _ => rfl
    have lawful : (Coupling.moved (· = ·) 0 []).Lawful := Coupling.moved_lawful reflexive 0 []
    have evaluators := lawful.evaluateWith
      (lawful.builtins (Coupling.moved_allowsChanges 0 [])) reach
    have runs : (Coupling.moved (· = ·) 0 []).Steps machine.state.store.lists.size _ _
        (Eval.runProgram (evaluate reach) program machine.globals scope)
        (Eval.runProgram (evaluate reach) program machine.globals scope) :=
      evaluators.runProgram _ _ (Node.Similar.refl reflexive program) rfl fun _ _ => trivial
    have outcomes := runs _ (Nat.le_refl _) machine.state machine.state
      ⟨Store.Sound.moved sound, rfl⟩
    rw [runIn_of_program parsed] at finished
    generalize Eval.runProgram (evaluate reach) program machine.globals scope machine.state =
      outcome at outcomes finished
    cases outcomes with
    | unfinished => cases finished
    | cut lax => exact lax.elim
    | exit grown errors states =>
      cases finished
      exact ⟨states.stores.sound reflexive, nofun⟩
    | value grown alike states =>
      cases finished
      refine ⟨states.stores.sound reflexive, ?_⟩
      intro value same
      obtain rfl := Except.ok.inj same
      have count := states.stores.count
      rw [count]
      exact Value.moved_self.mp alike

/-- Every machine that there is is sound. -/
theorem Reachable.sound (reached : machine.Reachable) : machine.Sound := by
  -- One case for each thing that a host can do.
  induction reached with
  | fresh host => exact Store.Sound.addGlobals Store.sound_empty
  | start host reached ih => exact Store.Sound.addGlobals ih
  | addScope parent reached ih => exact Store.Sound.addScope ih parent
  | addList reached known ih => exact Store.Sound.addList ih known
  | define scope name reached known ih => exact Store.Sound.define ih scope name known
  | copyVariable reached copied ih =>
    unfold Machine.copyVariable at copied
    obtain ⟨value, found, rfl⟩ := Option.map_eq_some_iff.mp copied
    obtain ⟨sound, known⟩ := Store.Sound.copy ih (Store.Sound.lookup ih found)
    exact sound.define _ _ known
  | runIn reached finished ih => exact (Sound.runIn ih finished).1
  | changeHost host reached ih => exact ih

end Machine

end Scriptlet
