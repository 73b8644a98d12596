import Scriptlet.Proofs.Store.Access
import Mathlib.Logic.Relation

/-!
How scopes lie inside of each other. A scope is only ever made inside of an earlier one, and stays
where it was made, so going outward from a scope ends at the outermost one.
-/

namespace Scriptlet.Store

/-- A scope that there is. -/
def Has (store : Store) (scope : ScopeId) : Prop :=
  scope.index < store.scopes.size

/-- The scopes that one comes through outward from a scope, to one with no other around it. -/
inductive Outward (store : Store) : ScopeId → List ScopeId → Prop where
  | root {scope : ScopeId} (last : store.parent? scope = none) : Outward store scope [scope]
  | inside {scope around : ScopeId} {path : List ScopeId}
    (next : store.parent? scope = some around) (rest : Outward store around path) :
    Outward store scope (scope :: path)

/-- What a search for a variable comes to that goes outward from a scope, one after another. -/
inductive Gets (store : Store) (name : String) : ScopeId → Option Value → Prop where
  | bound {scope : ScopeId} {value : Value} (found : store.binding? scope name = some value) :
    Gets store name scope (some value)
  | missing {scope : ScopeId} (unbound : store.binding? scope name = none)
    (last : store.parent? scope = none) : Gets store name scope none
  | outward {scope around : ScopeId} {result : Option Value}
    (unbound : store.binding? scope name = none) (next : store.parent? scope = some around)
    (rest : Gets store name around result) : Gets store name scope result

/-- Every scope but the outermost one was made inside of an earlier one, and so were functions. -/
structure Nested (store : Store) (globals : ScopeId) : Prop where
  there : store.Has globals
  outermost : store.parent? globals = none
  inside (scope : ScopeId) (has : store.Has scope) (other : scope ≠ globals) :
    ∃ around, store.parent? scope = some around ∧ store.Has around ∧ around.index < scope.index
  closures (place : ClosureId) (closure : Closure) (found : store.closure? place = some closure) :
    store.Has closure.scope

/--
The way outward from a scope is finite, comes through no scope twice and ends at the outermost one,
and a search for a variable finds it in the first scope on the way that has it, if there is one.
-/
structure Lexical (store : Store) (globals scope : ScopeId) (path : List ScopeId) : Prop where
  outward : store.Outward scope path
  distinct : path.Nodup
  last : path.getLast? = some globals
  gets (name : String) (result : Option Value) :
    store.Gets name scope result ↔ result = store.lookup scope name
  nearest (name : String) (value : Value) : store.lookup scope name = some value ↔
    ∃ inner place outer, path = inner ++ place :: outer ∧ store.binding? place name = some value ∧
      ∀ other ∈ inner, store.binding? other name = none
  missing (name : String) :
    store.lookup scope name = none ↔ ∀ place ∈ path, store.binding? place name = none

/-- What may be done to a store: nothing is made inside of a scope that is not there. -/
inductive Change : Store → Store → Prop where
  | define (store : Store) (scope : ScopeId) (name : String) (value : Value) :
    Change store (store.define scope name value)
  | addList (store : Store) (elements : Array Value) : Change store (store.addList elements).2
  | modifyList (store : Store) (list : ListId) (change : Array Value → Array Value) :
    Change store (store.modifyList list change)
  | addClosure {store : Store} {closure : Closure} (has : store.Has closure.scope) :
    Change store (store.addClosure closure).2
  | enclose {store : Store} {scope : ScopeId} (has : store.Has scope) :
    Change store (store.enclose scope).2

/-- What a store becomes when things are done to it one after another. -/
def Leads : Store → Store → Prop :=
  Relation.ReflTransGen Change

variable {store later : Store} {scope around globals : ScopeId} {path : List ScopeId}
  {name : String}

section Scopes

/-- Two ways outward from a scope are the same. -/
theorem Outward.unique {path' : List ScopeId} (outward : store.Outward scope path)
    (outward' : store.Outward scope path') : path = path' := by
  -- The induction goes outward; at each scope there is one way to go on.
  induction outward generalizing path' with
  | root last =>
    cases outward' with
    | root => rfl
    | inside next =>
      rw [last] at next
      cases next
  | inside next _ ih =>
    cases outward' with
    | root last =>
      rw [next] at last
      cases last
    | inside next' rest' =>
      obtain rfl := Option.some.inj (next.symm.trans next')
      rw [ih rest']

/-- A search finds the variable in the first scope on the way outward that has it. -/
theorem Outward.gets (outward : store.Outward scope path) (name : String) :
    store.Gets name scope (path.findSome? fun place => store.binding? place name) := by
  -- The induction goes outward, past every scope without the variable.
  induction outward with
  | @root scope last =>
    rw [List.findSome?_singleton]
    cases found : store.binding? scope name with
    | none => exact .missing found last
    | some value => exact .bound found
  | @inside scope around path next _ ih =>
    rw [List.findSome?_cons]
    cases found : store.binding? scope name with
    | none => exact .outward found next ih
    | some value => exact .bound found

/-- A search comes to one result. -/
theorem Gets.unique {result result' : Option Value} (gets : store.Gets name scope result)
    (gets' : store.Gets name scope result') : result = result' := by
  -- The induction goes outward; at each scope the search can only go on in one way.
  induction gets with
  | bound found => cases gets' <;> simp_all
  | missing unbound last => cases gets' <;> simp_all
  | outward unbound next _ ih =>
    cases gets' with
    | bound found => simp_all
    | missing _ last => simp_all
    | outward _ next' rest' =>
      obtain rfl := Option.some.inj (next.symm.trans next')
      exact ih rest'

end Scopes

namespace Nested

variable (nested : store.Nested globals)

include nested

/-- What holds of the outermost scope and goes from scopes to those in them holds of every one. -/
@[elab_as_elim]
theorem induction {motive : ScopeId → Prop} (outermost : motive globals)
    (inside : ∀ scope around, store.parent? scope = some around → store.Has scope →
      store.Has around → around.index < scope.index → motive around → motive scope)
    (has : store.Has scope) : motive scope := by
  -- The scope around another one was made before it.
  obtain ⟨place⟩ := scope
  induction place using Nat.strongRecOn with
  | _ place ih =>
    by_cases same : (⟨place⟩ : ScopeId) = globals
    · exact same ▸ outermost
    · obtain ⟨around, next, there, earlier⟩ := nested.inside ⟨place⟩ has same
      exact inside _ around next has there earlier (ih around.index earlier there)

/-- The parent of a scope is there. -/
theorem has_of_parent? (has : store.Has scope) (next : store.parent? scope = some around) :
    store.Has around := by
  -- The outermost scope has none.
  by_cases same : scope = globals
  · rw [same, nested.outermost] at next
    cases next
  · obtain ⟨around', next', there, -⟩ := nested.inside scope has same
    obtain rfl := Option.some.inj (next.symm.trans next')
    exact there

/-- The way outward from a scope is its chain. -/
theorem outward (has : store.Has scope) : store.Outward scope (store.chain scope) := by
  -- The chain of a scope goes on as the one of the scope around it.
  refine nested.induction ?_ (fun scope around next _ _ earlier shown => ?_) has
  · rw [chain_of_root nested.outermost]
    exact .root nested.outermost
  · rw [chain_of_parent next earlier]
    exact .inside next shown

/-- The way outward ends at the outermost scope. -/
theorem getLast?_chain (has : store.Has scope) : (store.chain scope).getLast? = some globals := by
  -- The chain ends as the one of the scope around it.
  refine nested.induction ?_ (fun scope around next _ _ earlier shown => ?_) has
  · rw [chain_of_root nested.outermost]
    rfl
  · rw [chain_of_parent next earlier, List.getLast?_cons, shown]
    rfl

/-- Every scope on the way outward is there, and was made no later than the first one. -/
theorem has_of_mem_chain (has : store.Has scope) :
    ∀ place ∈ store.chain scope, store.Has place ∧ place.index ≤ scope.index := by
  -- A scope further out is on the chain of the scope around it, which was made before.
  refine nested.induction ?_ (fun scope around next there _ earlier shown => ?_) has
  · rw [chain_of_root nested.outermost]
    rintro place member
    obtain rfl := List.mem_singleton.mp member
    exact ⟨nested.there, Nat.le_refl _⟩
  · rw [chain_of_parent next earlier]
    rintro place member
    rcases List.mem_cons.mp member with rfl | member
    · exact ⟨there, Nat.le_refl _⟩
    · obtain ⟨has, later⟩ := shown place member
      exact ⟨has, Nat.le_trans later (Nat.le_of_lt earlier)⟩

/-- Each scope on the way outward was made before the ones inside of it. -/
theorem pairwise_chain (has : store.Has scope) :
    (store.chain scope).Pairwise fun inner outer => outer.index < inner.index := by
  -- All scopes on the chain of the scope around it were made no later than that one.
  refine nested.induction ?_ (fun scope around next _ there earlier shown => ?_) has
  · rw [chain_of_root nested.outermost]
    exact List.pairwise_singleton _ _
  · rw [chain_of_parent next earlier]
    refine List.pairwise_cons.mpr ⟨fun place member => ?_, shown⟩
    exact Nat.lt_of_le_of_lt (nested.has_of_mem_chain there place member).2 earlier

/-- Scopes that are nested are searched from the inside out. -/
theorem lexical (has : store.Has scope) :
    store.Lexical globals scope (store.chain scope) where
  outward := nested.outward has
  distinct := by
    refine (nested.pairwise_chain has).imp fun {inner outer} earlier => ?_
    rintro rfl
    exact Nat.lt_irrefl _ earlier
  last := nested.getLast?_chain has
  gets name result := by
    have gets : store.Gets name scope (store.lookup scope name) := (nested.outward has).gets name
    exact ⟨fun other => other.unique gets, fun same => same ▸ gets⟩
  nearest _ _ := List.findSome?_eq_some_iff
  missing _ := List.findSome?_eq_none_iff

end Nested

section Changes

/-- A new scope is there, and so are all others. -/
theorem has_enclose {place : ScopeId} :
    (store.enclose scope).2.Has place ↔ place = ⟨store.scopes.size⟩ ∨ store.Has place := by
  obtain ⟨index⟩ := place
  simp only [Has, enclose, addScope, Array.size_push, ScopeId.mk.injEq]
  omega

/-- A definition adds no scope. -/
theorem has_define {value : Value} {place : ScopeId} :
    (store.define scope name value).Has place ↔ store.Has place := by
  simp only [Has, define, Array.size_modify]

/-- What there is stays there. -/
theorem Change.has (change : store.Change later) (has : store.Has scope) : later.Has scope := by
  -- Scopes are added or changed, and never taken away.
  cases change with
  | define => exact has_define.mpr has
  | addList | modifyList | addClosure => exact has
  | enclose => exact has_enclose.mpr (.inr has)

/-- The parent of a scope stays the same. -/
theorem Change.parent? (change : store.Change later) (has : store.Has scope) :
    later.parent? scope = store.parent? scope := by
  -- Only a new scope is put anywhere, and its place is behind all others.
  cases change with
  | define => exact parent?_define
  | addList | modifyList | addClosure => rfl
  | enclose =>
    rw [Store.enclose, parent?_addScope, if_neg]
    rintro rfl
    exact Nat.lt_irrefl _ has

/-- The parent of a new scope is the one that it was made in. -/
theorem parent?_enclose (store : Store) (scope : ScopeId) :
    (store.enclose scope).2.parent? ⟨store.scopes.size⟩ = some scope := by
  rw [enclose, parent?_addScope, if_pos rfl]

/-- What is nested stays so. -/
theorem Change.nested (change : store.Change later) (nested : store.Nested globals) :
    later.Nested globals := by
  -- Only one kind of change adds a scope, and only one a function.
  have old {scope : ScopeId} (has : store.Has scope) (other : scope ≠ globals) :
      ∃ around, later.parent? scope = some around ∧ later.Has around ∧
        around.index < scope.index := by
    obtain ⟨around, next, there, earlier⟩ := nested.inside scope has other
    exact ⟨around, (change.parent? has).trans next, change.has there, earlier⟩
  refine ⟨change.has nested.there, (change.parent? nested.there).trans nested.outermost,
    fun scope has other => ?_, fun place closure found => ?_⟩
  · cases change with
    | define => exact old (has_define.mp has) other
    | addList | modifyList | addClosure => exact old has other
    | @enclose place there =>
      rcases has_enclose.mp has with rfl | has
      · -- The new scope has a later place than the one around it.
        exact ⟨place, parent?_enclose store place, Change.has (.enclose there) there, there⟩
      · exact old has other
  · refine change.has ?_
    cases change with
    | define | addList | modifyList | enclose => exact nested.closures place closure found
    | @addClosure made there =>
      simp only [closure?, Store.addClosure, Array.getElem?_push] at found
      split at found
      · obtain rfl := Option.some.inj found
        exact there
      · exact nested.closures place closure found

/-- The way outward from a new scope in the outermost one leads there at once. -/
theorem Nested.outward_enclose (nested : store.Nested globals) :
    (store.enclose globals).2.Outward ⟨store.scopes.size⟩ [⟨store.scopes.size⟩, globals] := by
  have outermost : (store.enclose globals).2.parent? globals = none :=
    (Change.parent? (.enclose nested.there) nested.there).trans nested.outermost
  exact .inside (parent?_enclose store globals) (.root outermost)

end Changes

namespace Leads

/-- What there is stays there. -/
theorem has (leads : store.Leads later) (has : store.Has scope) : later.Has scope := by
  -- The induction is on the changes, one after another.
  induction leads with
  | refl => exact has
  | tail _ change ih => exact change.has ih

/-- The parent of a scope stays the same. -/
theorem parent? (leads : store.Leads later) (has : store.Has scope) :
    later.parent? scope = store.parent? scope := by
  -- The induction is on the changes, one after another.
  induction leads with
  | refl => rfl
  | tail leads change ih => rw [change.parent? (Leads.has leads has), ih]

/-- What is nested stays so. -/
theorem nested (leads : store.Leads later) (nested : store.Nested globals) :
    later.Nested globals := by
  -- The induction is on the changes, one after another.
  induction leads with
  | refl => exact nested
  | tail _ change ih => exact change.nested ih

/-- The way outward from a scope stays as it is. -/
theorem outward (leads : store.Leads later) (nested : store.Nested globals) (has : store.Has scope)
    (outward : store.Outward scope path) : later.Outward scope path := by
  -- The induction goes outward, and every scope on the way is there.
  induction outward with
  | root last => exact .root ((leads.parent? has).trans last)
  | @inside scope around _ next _ ih =>
    have there : store.Has around := nested.has_of_parent? has next
    exact .inside ((leads.parent? has).trans next) (ih there)

/-- A copy of a value may be a new list. -/
theorem copy (value : Value) : store.Leads (store.copy value).2 := by
  -- Nothing but a list is made for a copy.
  cases value with
  | list list => exact .single (.addList store (store.elements list))
  | number | text | closure | builtin => exact .refl

end Leads

/-- What may be done once for each of some items may be done for all of them. -/
theorem leads_foldl {α : Type} {update : Store → α → Store}
    (updates : ∀ store item, Change store (update store item)) (items : List α) (store : Store) :
    store.Leads (items.foldl update store) := by
  -- The induction goes along the items.
  induction items generalizing store with
  | nil => exact .refl
  | cons item rest ih => exact .head (updates store item) (ih _)

/-- The outermost scope of a store that has no other one. -/
theorem nested_addGlobals : Nested (addGlobals empty).2 (addGlobals empty).1 := by
  -- The first scope is alone, and the definitions in it change nothing of that.
  have leads : Leads (empty.addScope none).2 (addGlobals empty).2 := by
    refine leads_foldl (fun store given => ?_) _ _
    exact .define store ⟨0⟩ given.1 given.2
  refine leads.nested ⟨?_, rfl, ?_, ?_⟩
  · exact Nat.zero_lt_one
  · rintro ⟨place⟩ has other
    exact absurd (congrArg ScopeId.mk (Nat.lt_one_iff.mp has)) other
  · rintro place closure found
    cases found

end Scriptlet.Store
