import Scriptlet.Store

/-! What scopes, lists and functions show after a store has changed. -/

namespace Scriptlet.Store

variable {store : Store} {scope around place : ScopeId} {name other : String} {list : ListId}
  {value given : Value} {parent : Option ScopeId}

/-- A definition is only seen in the variable that it defines. -/
theorem binding?_define (bound : (store.define scope name value).binding? place other = some given) :
    (place = scope ∧ other = name ∧ given = value) ∨
      store.binding? place other = some given := by
  by_cases same : scope.index = place.index
  · simp only [binding?, define, Array.getElem?_modify, same, ↓reduceIte] at bound ⊢
    cases found : store.scopes[place.index]? with
    | none => simp [found] at bound
    | some inner =>
      simp only [found, Option.map_some, Option.bind_some, Std.ExtTreeMap.getElem?_insert,
        Std.LawfulEqCmp.compare_eq_iff_eq] at bound ⊢
      split at bound
      · rename_i names
        exact .inl ⟨congrArg ScopeId.mk same.symm, names.symm, (Option.some.inj bound).symm⟩
      · exact .inr bound
  · right
    simpa only [binding?, define, Array.getElem?_modify, same, ↓reduceIte] using bound

/-- Every other variable shows what it showed before a definition. -/
theorem binding?_define_of_ne (differs : place ≠ scope ∨ other ≠ name) :
    (store.define scope name value).binding? place other = store.binding? place other := by
  by_cases same : scope.index = place.index
  · -- In the same scope the name is another one.
    have names : name ≠ other := by
      rintro rfl
      exact differs.elim (fun places => places (congrArg ScopeId.mk same.symm)) fun names => names rfl
    simp only [binding?, define, Array.getElem?_modify, same, ↓reduceIte]
    cases store.scopes[place.index]? with
    | none => rfl
    | some found =>
      simp [Std.ExtTreeMap.getElem?_insert, names]
  · simp only [binding?, define, Array.getElem?_modify, same, ↓reduceIte]

/-- The variable that a definition is about shows its value if there is such a scope. -/
theorem binding?_define_self :
    (store.define scope name value).binding? scope name =
      if scope.index < store.scopes.size then some value else none := by
  split
  · rename_i present
    simp [binding?, define, Array.getElem?_modify, Array.getElem?_eq_getElem present]
  · rename_i missing
    simp [binding?, define, Array.getElem?_modify, Array.getElem?_eq_none (Nat.not_lt.mp missing)]

/-- A variable that shows something is one of a scope that is there. -/
theorem present_of_binding? (bound : store.binding? scope name = some value) :
    scope.index < store.scopes.size := by
  rcases Nat.lt_or_ge scope.index store.scopes.size with present | missing
  · exact present
  · simp [binding?, Array.getElem?_eq_none missing] at bound

/-- The chain of a scope on its own is that scope. -/
theorem chain_of_root (last : store.parent? scope = none) : store.chain scope = [scope] := by
  rw [chain, last]

/-- The chain of a scope goes on as the one of the older scope around it. -/
theorem chain_of_parent (next : store.parent? scope = some around)
    (older : around.index < scope.index) :
    store.chain scope = scope :: store.chain around := by
  rw [chain, next]
  exact if_pos older

/-- A chain begins with its own scope. -/
theorem exists_chain (store : Store) (scope : ScopeId) :
    ∃ rest, store.chain scope = scope :: rest := by
  rw [chain]
  split
  · exact ⟨[], rfl⟩
  · split
    · exact ⟨_, rfl⟩
    · exact ⟨[], rfl⟩

/-- In two stores with the same parents the chains are the same. -/
theorem chain_eq_of_parent? {store' : Store}
    (same : ∀ place, store.parent? place = store'.parent? place) (scope : ScopeId) :
    store.chain scope = store'.chain scope := by
  -- The induction goes outward, from parent to parent.
  fun_induction store.chain scope with
  | case1 scope last => rw [chain_of_root ((same scope).symm.trans last)]
  | case2 scope around next older ih =>
    rw [chain_of_parent ((same scope).symm.trans next) older, ih]
  | case3 scope around next newer =>
    rw [chain, ← same scope, next]
    exact (if_neg newer).symm

/-- The nearest scope with a variable is the scope itself if it has it. -/
theorem lookup_of_binding? (bound : store.binding? scope name = some value) :
    store.lookup scope name = some value := by
  obtain ⟨rest, chain⟩ := store.exists_chain scope
  rw [lookup, chain, List.findSome?_cons, bound]

/-- A scope with a parent is there. -/
theorem present_of_parent? (next : store.parent? scope = some around) :
    scope.index < store.scopes.size := by
  rcases Nat.lt_or_ge scope.index store.scopes.size with present | missing
  · exact present
  · simp [parent?, Array.getElem?_eq_none missing] at next

/-- A list with an element is there. -/
theorem present_of_mem_elements (member : value ∈ store.elements list) :
    list.index < store.lists.size := by
  rcases Nat.lt_or_ge list.index store.lists.size with present | missing
  · exact present
  · simp [elements, Array.getElem?_eq_none missing] at member

/-- What is in a list after a change is in the changed list, or was in the other one before. -/
theorem mem_elements_modifyList {change : Array Value → Array Value} {inner : ListId}
    (member : value ∈ (store.modifyList list change).elements inner) :
    value ∈ change (store.elements list) ∨ value ∈ store.elements inner := by
  -- A change of a list leaves every other one as it is.
  by_cases changed : list.index = inner.index
  · left
    simp only [modifyList, elements, Array.getElem?_modify, changed, ↓reduceIte] at member ⊢
    cases found : store.lists[inner.index]? with
    | none => simp [found] at member
    | some elements => simpa [found] using member
  · right
    simpa only [modifyList, elements, Array.getElem?_modify, changed, ↓reduceIte] using member

/-- A list that is there has its changed elements after a change. -/
theorem elements_modifyList_self {change : Array Value → Array Value}
    (there : list.index < store.lists.size) :
    (store.modifyList list change).elements list = change (store.elements list) := by
  simp [elements, modifyList, Array.getElem?_modify, Array.getElem?_eq_getElem there]

/-- Every other list keeps its elements. -/
theorem elements_modifyList_of_ne {change : Array Value → Array Value} {inner : ListId}
    (other : inner ≠ list) :
    (store.modifyList list change).elements inner = store.elements inner := by
  have apart : list.index ≠ inner.index := fun same => other (congrArg ListId.mk same.symm)
  simp only [elements, modifyList, Array.getElem?_modify, apart, ↓reduceIte]

/-- Older lists keep their elements when a list is made. -/
theorem elements_addList_of_lt {elements : Array Value} (old : list.index < store.lists.size) :
    (store.addList elements).2.elements list = store.elements list := by
  simp only [addList, Store.elements]
  rw [Array.getElem?_push_lt old, Array.getElem?_eq_getElem]

/-- A list that has just been made has the elements that it was made of. -/
theorem elements_addList (elements : Array Value) :
    (store.addList elements).2.elements ⟨store.lists.size⟩ = elements := by
  simp only [addList, Store.elements, Array.getElem?_push_size, Option.getD_some]

/-- A definition leaves the parent of a scope as it is. -/
@[simp] theorem parent?_define :
    (store.define scope name value).parent? place = store.parent? place := by
  -- Only the variables of a scope are defined, not what it is inside.
  simp only [parent?, define, Array.getElem?_modify]
  split
  · cases store.scopes[place.index]? <;> rfl
  · rfl

/-- A definition leaves the scopes around a scope as they are. -/
@[simp] theorem chain_define : (store.define scope name value).chain place = store.chain place :=
  chain_eq_of_parent? (fun _ => parent?_define) place

/-- A new list is no scope. -/
@[simp] theorem chain_addList (elements : Array Value) :
    (store.addList elements).2.chain place = store.chain place := by
  apply chain_eq_of_parent?
  exact fun _ => rfl

/-- A change of a list changes no scope. -/
@[simp] theorem chain_modifyList (change : Array Value → Array Value) :
    (store.modifyList list change).chain place = store.chain place := by
  apply chain_eq_of_parent?
  exact fun _ => rfl

/-- A new function is no scope. -/
@[simp] theorem chain_addClosure (closure : Closure) :
    (store.addClosure closure).2.chain place = store.chain place := by
  apply chain_eq_of_parent?
  exact fun _ => rfl

/-- A new scope has no variables, and all others keep theirs. -/
@[simp] theorem binding?_addScope (parent : Option ScopeId) :
    (store.addScope parent).2.binding? place name = store.binding? place name := by
  simp only [binding?, addScope, Array.getElem?_push]
  split
  · rename_i new
    simp [new]
  · rfl

/-- A new scope has the given parent, and all others keep theirs. -/
theorem parent?_addScope (parent : Option ScopeId) :
    (store.addScope parent).2.parent? place =
      if place = ⟨store.scopes.size⟩ then parent else store.parent? place := by
  -- Scopes are told apart by their places, and the new one comes last.
  simp only [parent?, addScope, Array.getElem?_push]
  obtain ⟨index⟩ := place
  by_cases new : index = store.scopes.size
  · simp [new]
  · simp [new]

/-- The chains of all other scopes stay as they are when one is made. -/
theorem chain_addScope_of_ne (old : place ≠ ⟨store.scopes.size⟩) :
    (store.addScope parent).2.chain place = store.chain place := by
  -- The induction goes outward; no scope there is as new as the one that is made.
  fun_induction store.chain place with
  | case1 place last =>
    exact chain_of_root (by rw [parent?_addScope, if_neg old, last])
  | case2 place around next older ih =>
    have there : place.index < store.scopes.size := present_of_parent? next
    have next' : (store.addScope parent).2.parent? place = some around := by
      rw [parent?_addScope, if_neg old, next]
    rw [chain_of_parent next' older, ih]
    rintro rfl
    exact Nat.lt_asymm there older
  | case3 place around next newer =>
    rw [chain, parent?_addScope, if_neg old, next]
    exact if_neg newer

/-- Around a new scope are itself, its parent and the scopes around that. -/
theorem mem_chain_addScope
    (member : place ∈ (store.addScope parent).2.chain ⟨store.scopes.size⟩) :
    place = ⟨store.scopes.size⟩ ∨ ∃ around ∈ parent, place ∈ store.chain around := by
  have link : (store.addScope parent).2.parent? ⟨store.scopes.size⟩ = parent := by
    rw [parent?_addScope, if_pos rfl]
  rw [chain, link] at member
  split at member
  · exact .inl (List.mem_singleton.mp member)
  · next around =>
    split at member
    · next older =>
      rcases List.mem_cons.mp member with same | member
      · exact .inl same
      · -- The chain of the parent, which is older, is what it was before.
        have apart : around ≠ ⟨store.scopes.size⟩ := fun same =>
          Nat.ne_of_lt older (congrArg ScopeId.index same)
        rw [chain_addScope_of_ne apart] at member
        exact .inr ⟨around, rfl, member⟩
    · exact .inl (List.mem_singleton.mp member)

end Scriptlet.Store
