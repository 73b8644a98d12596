import Scriptlet.Proofs.Eval.Waypoint
import Scriptlet.Proofs.Store.Access

/-! Variables own their lists: no two of them are ever bound to the same one. -/

namespace Scriptlet

namespace Store

/-- A variable of a scope is bound to a list. -/
def Binds (store : Store) (scope : ScopeId) (name : String) (list : ListId) : Prop :=
  store.binding? scope name = some (.list list)

/-- No two variables are bound to one list. -/
def Unshared (store : Store) : Prop :=
  ∀ ⦃scope name scope' name' list⦄, store.Binds scope name list →
    store.Binds scope' name' list → scope = scope' ∧ name = name'

/-- No two variables are bound to one list, and all lists that variables are bound to are there. -/
structure Apart (store : Store) : Prop where
  unshared : store.Unshared
  made {scope : ScopeId} {name : String} {list : ListId} (bound : store.Binds scope name list) :
    list.index < store.lists.size

variable {store : Store} {scope place : ScopeId} {name other : String} {list : ListId}
  {value given : Value}

/-- A list keeps its elements if they are not changed. -/
theorem modifyList_id (store : Store) (list : ListId) : store.modifyList list id = store := by
  have same : store.lists.modify list.index id = store.lists := by
    apply Array.ext_getElem?
    intro place
    simp [Array.getElem?_modify]
  simp only [modifyList, same]

namespace Apart

/-- A variable that gets no list shares none. -/
theorem define (apart : store.Apart) (scope : ScopeId) (name : String)
    (plain : ∀ list, value ≠ .list list) : (store.define scope name value).Apart := by
  -- What is bound to a list now was bound to it before.
  have old {place : ScopeId} {other : String} {list : ListId}
      (bound : (store.define scope name value).Binds place other list) :
      store.Binds place other list :=
    (binding?_define bound).resolve_left fun ⟨_, _, same⟩ => plain list same.symm
  constructor
  · exact fun _ _ _ _ _ bound bound' => apart.unshared (old bound) (old bound')
  · exact fun bound => apart.made (old bound)

/-- A variable that gets a new list is the only one that has it. -/
theorem defineFresh (apart : store.Apart) (scope : ScopeId) (name : String)
    (elements : Array Value) :
    ((store.addList elements).2.define scope name (.list ⟨store.lists.size⟩)).Apart := by
  -- A variable is the new one or has an older list, and the new list is none of the older ones.
  have cases {place : ScopeId} {other : String} {list : ListId}
      (bound : ((store.addList elements).2.define scope name (.list ⟨store.lists.size⟩)).Binds
        place other list) :
      (place = scope ∧ other = name ∧ list.index = store.lists.size) ∨
        store.Binds place other list := by
    rcases binding?_define bound with ⟨rfl, rfl, same⟩ | old
    · exact .inl ⟨rfl, rfl, congrArg ListId.index (Value.list.inj same)⟩
    · exact .inr old
  constructor
  · intro place other place' other' list bound bound'
    rcases cases bound with ⟨rfl, rfl, new⟩ | old <;>
      rcases cases bound' with ⟨rfl, rfl, new'⟩ | old'
    · exact ⟨rfl, rfl⟩
    · exact absurd (apart.made old') (by omega)
    · exact absurd (apart.made old) (by omega)
    · exact apart.unshared old old'
  · intro place other list bound
    show list.index < (store.lists.push elements).size
    rw [Array.size_push]
    rcases cases bound with ⟨-, -, new⟩ | old
    · omega
    · have := apart.made old
      omega

/-- A new list is not bound to any variable. -/
theorem addList (apart : store.Apart) (elements : Array Value) :
    (store.addList elements).2.Apart where
  unshared := apart.unshared
  made := by
    intro scope name list bound
    have old := apart.made bound
    show list.index < (store.lists.push elements).size
    rw [Array.size_push]
    omega

/-- A variable that gets a copy shares no list. -/
theorem defineCopy (apart : store.Apart) (scope : ScopeId) (name : String) (value : Value) :
    ((store.copy value).2.define scope name (store.copy value).1).Apart := by
  -- Only the copy of a list is a list, and it is a new one.
  cases value with
  | list list => exact apart.defineFresh scope name (store.elements list)
  | number | text | closure | builtin => exact apart.define scope name (by simp [copy])

/-- A change of elements binds no variable. -/
theorem modifyList (apart : store.Apart) (list : ListId) (change : Array Value → Array Value) :
    (store.modifyList list change).Apart where
  unshared := apart.unshared
  made := by
    intro scope name other bound
    show other.index < (store.lists.modify list.index change).size
    rw [Array.size_modify]
    exact apart.made bound

/-- A new scope has no variables. -/
theorem addScope (apart : store.Apart) (parent : Option ScopeId) :
    (store.addScope parent).2.Apart where
  unshared := by
    simpa only [Unshared, Binds, binding?_addScope] using apart.unshared
  made := by
    intro scope name list bound
    rw [Binds, binding?_addScope] at bound
    exact apart.made bound

/-- In a store in which nothing was made, no variable shares a list. -/
theorem empty : Store.empty.Apart where
  unshared := by
    intro scope name scope' name' list bound
    simp [Binds, binding?, Store.empty] at bound
  made := by
    intro scope name list bound
    simp [Binds, binding?, Store.empty] at bound

/-- Variables that hold no list may be defined in any store. -/
theorem defineAll (scope : ScopeId) (entries : List (String × Value))
    (plain : ∀ entry ∈ entries, ∀ list, entry.2 ≠ .list list) {store : Store}
    (apart : store.Apart) :
    (entries.foldl (fun store entry => store.define scope entry.1 entry.2) store).Apart := by
  -- The induction goes along the variables.
  induction entries generalizing store with
  | nil => exact apart
  | cons entry rest ih =>
    rw [List.forall_mem_cons] at plain
    exact ih plain.2 (apart.define scope entry.1 plain.1)

/-- The global variables hold no list at first. -/
theorem addGlobals (apart : store.Apart) : store.addGlobals.2.Apart := by
  have plain : ∀ entry ∈ initialVariables, ∀ list, entry.2 ≠ .list list := by
    intro entry member list same
    simp only [initialVariables, List.mem_append, List.mem_cons, List.not_mem_nil, or_false,
      List.mem_flatMap, List.mem_map] at member
    rcases member with (rfl | rfl | rfl | rfl) | ⟨builtin, _, name, _, rfl⟩ <;> cases same
  exact defineAll _ _ plain (apart.addScope none)

end Apart

end Store

/-- No variables share a list, whatever programs and scripts do. -/
def Policy.apart (scripts : String → Except String String) : Policy where
  scripts := scripts
  holds := Store.Apart
  functions := fun _ => True
  executes := fun _ _ _ => True
  errors := fun _ _ => True

/-- Every step keeps variables from sharing lists. -/
theorem Policy.apart_lawful (scripts : String → Except String String) :
    (Policy.apart scripts).Lawful where
  define := fun scope name _ held plain => Store.Apart.define held scope name plain
  defineCopy := fun scope name value held => Store.Apart.defineCopy held scope name value
  addList := fun elements held => Store.Apart.addList held elements
  modifyList := fun list change held => Store.Apart.modifyList held list change
  enclose := fun _ held => Store.Apart.addScope held _
  addClosure := fun held _ => ⟨held.unshared, held.made⟩
  closure? := fun _ _ => trivial
  function := fun _ _ => trivial
  call := fun _ _ _ _ => trivial
  script := fun _ _ _ _ => trivial
  fails := fun _ _ _ => trivial
  builtinFails := fun _ _ _ _ => trivial
  escapes := fun _ _ => trivial

namespace Machine

/--
Interpreters whose variables were all bound by programs. Each program runs in any scope and beside
any host, to its end or up to a state that it comes through.
-/
inductive Programmed : Machine → Prop where
  | fresh (host : Host) : Programmed (.fresh host)
  | addScope {machine : Machine} (parent : Option ScopeId) (programmed : Programmed machine) :
    Programmed (machine.addScope parent).2
  | changeHost {machine : Machine} (host : Host) (programmed : Programmed machine) :
    Programmed { machine with state.host := host }
  | runIn {machine next : Machine} {reach : Nat} {source : Source} {scope : ScopeId}
    {result : Except ProgramError Value} (programmed : Programmed machine)
    (finished : machine.runIn reach source scope = some (result, next)) : Programmed next
  | stop {machine : Machine} {source : Source} {scope : ScopeId} {state : State}
    (programmed : Programmed machine) (passed : machine.ComesThrough source scope state) :
    Programmed { machine with state }

variable {machine : Machine}

/-- No variables of such an interpreter share a list. -/
theorem Programmed.apart (programmed : machine.Programmed) : machine.state.store.Apart := by
  -- One case for each thing that is done with an interpreter.
  induction programmed with
  | fresh host => exact Store.Apart.empty.addGlobals
  | addScope parent _ ih => exact ih.addScope parent
  | changeHost host _ ih => exact ih
  | @runIn machine next reach source scope result _ finished ih =>
    cases parsed : source.program with
    | error error =>
      unfold Machine.runIn at finished
      rw [parsed] at finished
      cases finished
      exact ih
    | ok program =>
      have passed := comesThrough_of_ended parsed finished
      exact ((Policy.apart_lawful machine.state.host.scripts).comesThrough ⟨ih, rfl⟩
        (fun _ _ => trivial) passed).store
  | @stop machine source scope state _ passed ih =>
    exact ((Policy.apart_lawful machine.state.host.scripts).comesThrough ⟨ih, rfl⟩
      (fun _ _ => trivial) passed).store

end Machine

namespace Eval

variable {evaluate : Evaluator} {frame : Frame} {site : Span} {function : Builtin} {list : ListId}
  {given : List Value} {state after : State}

/-- A step that changes at most the elements of one list. -/
def Changes (list : ListId) (step : Action EvalError Value) : Prop :=
  ∀ state after, (step state).after? = some after →
    ∃ change, after.store = state.store.modifyList list change

/-- A failure changes nothing. -/
theorem changes_fail (list : ListId) (frame : Frame) (cause : EvalError.Cause) (site : Span) :
    Changes list (Action.fail frame cause site) := by
  rintro state after ended
  obtain rfl := Option.some.inj ended
  exact ⟨id, (state.store.modifyList_id list).symm⟩

/-- A change of the elements of a list, with any value. -/
theorem changes_modifyList (list : ListId) (change : Array Value → Array Value) (value : Value) :
    Changes list (do
      Action.change (Store.modifyList list change)
      return value) := by
  rintro state after ended
  obtain rfl := Option.some.inj ended
  exact ⟨change, rfl⟩

/-- What is done with the elements of a list that was looked at. -/
theorem changes_elements {list other : ListId} {next : Array Value → Action EvalError Value}
    (changes : ∀ elements, Changes list (next elements)) :
    Changes list (Action.look (·.elements other) >>= next) :=
  fun state => changes (state.store.elements other) state

/-- A call that changes lists changes at most the list that is its first argument. -/
theorem changes_callValue {evaluate : Evaluator} {frame : Frame} {site : Span}
    {function : Builtin} {list : ListId} {given : List Value} (mutates : function.mutates) :
    Changes list
      (callValue builtin evaluate frame site (.builtin function) (.list list :: given)) := by
  rcases callValue_builtin_cases evaluate frame site function (.list list :: given) with
    ⟨cause, refused⟩ | ⟨-, entered⟩
  · rw [refused]
    exact changes_fail list frame cause site
  · -- A function that refuses its second argument changes nothing either.
    rw [entered]
    cases function with
    | append => exact changes_modifyList list _ .null
    | pop =>
      simp only [effect, List.getD_cons_zero, pop]
      split
      · rename_i same _
        obtain rfl := Value.list.inj same
        apply changes_elements
        intro elements
        split
        · exact changes_fail _ _ _ site
        · exact changes_modifyList _ _ _
      · exact changes_fail list _ _ site
      · exact changes_fail list _ _ site
    | extend =>
      simp only [effect, List.getD_cons_zero, extend]
      split
      · rename_i same _
        obtain rfl := Value.list.inj same
        apply changes_elements
        intro elements
        exact changes_modifyList _ _ .null
      · exact changes_fail list _ _ site
      · exact changes_fail list _ _ site
    | print | printRet | input | inputInt | clear | isNumber | isText | isList | isFunction
    | length | run => cases mutates

end Eval

namespace Machine

/--
Variables own their lists: whatever programs do, at no time are two variables bound to one list, so
a call that changes the list of one variable leaves every other variable its list and its elements.
-/
theorem lists_unshared {machine : Machine} (programmed : machine.Programmed) :
    machine.state.store.Unshared ∧
      ∀ {scope name list scope' name' list'}, machine.state.store.Binds scope name list →
        machine.state.store.Binds scope' name' list' → (scope ≠ scope' ∨ name ≠ name') →
        ∀ {function : Builtin} {evaluate frame site given after}, function.mutates →
          (Eval.callValue Eval.builtin evaluate frame site (.builtin function)
            (.list list :: given) machine.state).after? = some after →
          after.store.Binds scope' name' list' ∧
            after.store.elements list' = machine.state.store.elements list' := by
  have unshared := programmed.apart.unshared
  refine ⟨unshared, ?_⟩
  intro scope name list scope' name' list' bound bound' distinct function evaluate frame site given
    after mutates ended
  obtain ⟨change, changed⟩ := Eval.changes_callValue mutates machine.state after ended
  -- Variables with one list would be one variable.
  have others : list.index ≠ list'.index := by
    intro same
    obtain rfl : list = list' := congrArg ListId.mk same
    obtain ⟨scopes, names⟩ := unshared bound bound'
    exact distinct.elim (absurd scopes) (absurd names)
  rw [changed]
  refine ⟨bound', ?_⟩
  simp only [Store.elements, Store.modifyList, Array.getElem?_modify, others, ↓reduceIte]

/-- A program that gives two variables lists of the same elements. -/
def doubling : Source :=
  { name := "doubling", text := "VAR x = [1]\nVAR y = x" }

/-- The list of the second variable stays as it is when the first one gets one more element. -/
theorem lists_unshared_doubling :
    ∃ (machine : Machine) (list list' : ListId) (after : State), machine.Programmed ∧
      machine.state.store.Binds ⟨0⟩ "x" list ∧ machine.state.store.Binds ⟨0⟩ "y" list' ∧
      (Eval.callValue Eval.builtin (evaluate 1) (.ofProgram ⟨0⟩ ⟨0⟩) default (.builtin .append)
        [.list list, .null] machine.state).after? = some after ∧
      after.store.elements list' = machine.state.store.elements list' := by
  let host := Host.prepared [] [] .gibibyte .none
  have ends : ((fresh host).runIn 9 doubling ⟨0⟩).isSome := by decide +kernel
  have first : ((fresh host).runIn 9 doubling ⟨0⟩).map
      (·.2.state.store.binding? ⟨0⟩ "x") = some (some (.list ⟨1⟩)) := by decide +kernel
  have second : ((fresh host).runIn 9 doubling ⟨0⟩).map
      (·.2.state.store.binding? ⟨0⟩ "y") = some (some (.list ⟨2⟩)) := by decide +kernel
  obtain ⟨⟨result, machine⟩, finished⟩ := Option.isSome_iff_exists.mp ends
  rw [finished] at first second
  have bound : machine.state.store.Binds ⟨0⟩ "x" ⟨1⟩ := Option.some.inj first
  have bound' : machine.state.store.Binds ⟨0⟩ "y" ⟨2⟩ := Option.some.inj second
  have programmed : machine.Programmed := .runIn (.fresh host) finished
  obtain ⟨after, ended⟩ : ∃ after, (Eval.callValue Eval.builtin (evaluate 1) (.ofProgram ⟨0⟩ ⟨0⟩)
      default (.builtin .append) [.list ⟨1⟩, .null] machine.state).after? = some after := ⟨_, rfl⟩
  have kept := (lists_unshared programmed).2 bound bound' (.inr (by decide)) rfl ended
  exact ⟨machine, ⟨1⟩, ⟨2⟩, after, programmed, bound, bound', ended, kept.2⟩

end Machine

end Scriptlet
