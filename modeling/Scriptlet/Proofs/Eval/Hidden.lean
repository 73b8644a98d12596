import Scriptlet.Proofs.Eval.Functions
import Scriptlet.Proofs.Eval.Moved
import Scriptlet.Proofs.Store.Access

/-!
A variable that nothing names: two runs in whose stores it has other values go on alike. Neither do
they see lists that nothing holds.
-/

namespace Scriptlet

/-- What runs have in reach, and the lists that they have thrown away. -/
structure Region where
  scopes : ScopeId → Prop
  lists : ListId → Prop
  closures : ClosureId → Prop
  discarded : ListId → Prop

/-- A value whose place is in reach, or that has none. -/
def Region.Knows (region : Region) : Value → Prop
  | .list list => region.lists list
  | .closure closure => region.closures closure
  | .number _ | .text _ | .builtin _ => True

/-- What is in reach of one region is in reach of another one. -/
structure Region.Within (region later : Region) : Prop where
  scopes (scope : ScopeId) (seen : region.scopes scope) : later.scopes scope
  lists (list : ListId) (seen : region.lists list) : later.lists list
  closures (closure : ClosureId) (seen : region.closures closure) : later.closures closure

/--
A region that whatever is in its reach does not lead out of. All its lists are there and kept, and
none of its functions names a variable.
-/
structure Region.Closed (region : Region) (name : String) (store : Store) : Prop where
  outer {scope outer : ScopeId} (seen : region.scopes scope)
    (around : outer ∈ store.chain scope) : region.scopes outer
  bindings {scope : ScopeId} {other : String} {value : Value} (seen : region.scopes scope)
    (bound : store.binding? scope other = some value) : region.Knows value
  kept {list : ListId} (seen : region.lists list) :
    list.index < store.lists.size ∧ ¬ region.discarded list
  elements {list : ListId} {value : Value} (seen : region.lists list)
    (member : value ∈ store.elements list) : region.Knows value
  functions {place : ClosureId} {closure : Closure} (seen : region.closures place)
    (found : store.closure? place = some closure) :
    region.scopes closure.scope ∧ name ∉ closure.body.names

/-- A value that is no list, or one of so many that is not among the discarded ones. -/
def Value.Kept (discarded : ListId → Prop) (size : Nat) (value : Value) : Prop :=
  ∀ list, value = .list list → list.index < size ∧ ¬ discarded list

/-- A store in which no variable, and no list but for the discarded ones, holds one of those. -/
structure Store.SoundBut (discarded : ListId → Prop) (store : Store) : Prop where
  bindings {scope : ScopeId} {name : String} {value : Value}
    (bound : store.binding? scope name = some value) : value.Kept discarded store.lists.size
  elements {list : ListId} {value : Value} (kept : ¬ discarded list)
    (member : value ∈ store.elements list) : value.Kept discarded store.lists.size

/--
Two stores with the same scopes, lists and functions, but for one variable of one scope and for the
elements of discarded lists.
-/
structure Store.SameBut (place : ScopeId) (name : String) (discarded : ListId → Prop)
    (store store' : Store) : Prop where
  scopes : store.scopes.size = store'.scopes.size
  parents (scope : ScopeId) : store.parent? scope = store'.parent? scope
  bindings (scope : ScopeId) (other : String) (differs : scope ≠ place ∨ other ≠ name) :
    store.binding? scope other = store'.binding? scope other
  count : store.lists.size = store'.lists.size
  lists (list : ListId) (kept : ¬ discarded list) :
    store.lists[list.index]? = store'.lists[list.index]?
  closures : store.closures = store'.closures

/--
A variable of a scope that two runs have other values of, with its value in the second one, and
further variables of the scope, all of which no one binds.
-/
structure Secret where
  place : ScopeId
  name : String
  value : Value
  fixed : List (String × Value)
  apart : ∀ entry ∈ fixed, entry.1 ≠ name
  start : Nat

/-- The variables of a scope that no one binds. -/
def Secret.Guards (secret : Secret) (name : String) : Prop :=
  name = secret.name ∨ ∃ value, (name, value) ∈ secret.fixed

/-- Two stores in which nothing but one variable and lists thrown away since a start may differ. -/
structure Store.Hidden (secret : Secret) (region : Region) (store store' : Store) : Prop where
  same : store.SameBut secret.place secret.name region.discarded store'
  sound : store.SoundBut region.discarded
  sound' : store'.SoundBut region.discarded
  closed : region.Closed secret.name store
  recent {list : ListId} (thrown : region.discarded list) :
    secret.start ≤ list.index ∧ list.index < store.lists.size
  longer : secret.start ≤ store.lists.size
  present : secret.place.index < store.scopes.size
  value : store'.binding? secret.place secret.name = some secret.value
  fixed {name : String} {value : Value} (member : (name, value) ∈ secret.fixed) :
    store'.binding? secret.place name = some value

variable {region later : Region} {secret : Secret} {name other : String} {store store' : Store}
  {place scope : ScopeId} {discarded : ListId → Prop} {value : Value} {list : ListId}

/-- What was in reach of a region within another one is in its reach. -/
theorem Region.Knows.mono (within_ : region.Within later) (known : region.Knows value) :
    later.Knows value := by
  cases value with
  | list list => exact within_.lists list known
  | closure closure => exact within_.closures closure known
  | number | text | builtin => trivial

/-- A region with one more list in reach. -/
def Region.addList (region : Region) (list : ListId) : Region :=
  { region with lists := fun other => other = list ∨ region.lists other }

/-- A region with one more function in reach. -/
def Region.addClosure (region : Region) (closure : ClosureId) : Region :=
  { region with closures := fun other => other = closure ∨ region.closures other }

/-- A region with one more scope in reach. -/
def Region.addScope (region : Region) (scope : ScopeId) : Region :=
  { region with scopes := fun other => other = scope ∨ region.scopes other }

/-- A region with one more list thrown away. -/
def Region.discard (region : Region) (list : ListId) : Region :=
  { region with discarded := fun other => other = list ∨ region.discarded other }

/-- A region is within itself. -/
theorem Region.Within.refl (region : Region) : region.Within region :=
  ⟨fun _ seen => seen, fun _ seen => seen, fun _ seen => seen⟩

/-- What is within a region that is within another one is within that one. -/
theorem Region.Within.trans {last : Region} (first : region.Within later)
    (second : later.Within last) : region.Within last where
  scopes := fun scope seen => second.scopes scope (first.scopes scope seen)
  lists := fun list seen => second.lists list (first.lists list seen)
  closures := fun closure seen => second.closures closure (first.closures closure seen)

/-- One more list in reach leaves the others there. -/
theorem Region.within_addList (region : Region) (list : ListId) :
    region.Within (region.addList list) :=
  { Within.refl region with lists := fun _ seen => .inr seen }

/-- One more function in reach leaves the others there. -/
theorem Region.within_addClosure (region : Region) (closure : ClosureId) :
    region.Within (region.addClosure closure) :=
  { Within.refl region with closures := fun _ seen => .inr seen }

/-- One more scope in reach leaves the others there. -/
theorem Region.within_addScope (region : Region) (scope : ScopeId) :
    region.Within (region.addScope scope) :=
  { Within.refl region with scopes := fun _ seen => .inr seen }

/-- A value that is kept among so many lists is so among more. -/
theorem Value.Kept.mono {size size' : Nat} (kept : value.Kept discarded size)
    (longer : size ≤ size') : value.Kept discarded size' := by
  intro list same
  obtain ⟨inside, left⟩ := kept list same
  exact ⟨Nat.lt_of_lt_of_le inside longer, left⟩

/-- A value in reach of a closed region is kept. -/
theorem Region.Closed.value_kept (closed : region.Closed name store) (known : region.Knows value) :
    value.Kept region.discarded store.lists.size := by
  rintro list rfl
  exact closed.kept known

namespace Region.Closed

variable {elements : Array Value} {change : Array Value → Array Value} {closure : Closure}

/-- A variable may get a value in reach. -/
theorem define (closed : region.Closed name store) (scope : ScopeId) (other : String)
    (known : region.Knows value) : region.Closed name (store.define scope other value) where
  outer := fun seen around => closed.outer seen (by simpa using around)
  bindings := by
    -- What a variable shows is the value that it was given, or what it showed before.
    intro place shown given seen bound
    rcases Store.binding?_define bound with ⟨-, -, rfl⟩ | old
    · exact known
    · exact closed.bindings seen old
  kept := closed.kept
  elements := closed.elements
  functions := closed.functions

/-- A new list of values in reach may come into reach. -/
theorem addList (closed : region.Closed name store) (fresh : ¬ region.discarded ⟨store.lists.size⟩)
    (known : ∀ value ∈ elements, region.Knows value) :
    (region.addList ⟨store.lists.size⟩).Closed name (store.addList elements).2 where
  outer := fun seen around => closed.outer seen (by simpa using around)
  bindings := fun seen bound => (closed.bindings seen bound).mono (region.within_addList _)
  kept := by
    -- The new list comes behind all others, so that none of them was thrown away with it.
    rintro list (rfl | seen)
    · exact ⟨by simp [Store.addList], fresh⟩
    · obtain ⟨inside, left⟩ := closed.kept seen
      refine ⟨?_, left⟩
      simp only [Store.addList, Array.size_push]
      omega
  elements := by
    rintro list value (rfl | seen) member
    · rw [Store.elements_addList] at member
      exact (known value member).mono (region.within_addList _)
    · rw [Store.elements_addList_of_lt (closed.kept seen).1] at member
      exact (closed.elements seen member).mono (region.within_addList _)
  functions := closed.functions

/-- A new list that does not come into reach may be thrown away. -/
theorem discard (closed : region.Closed name store) (elements : Array Value) :
    (region.discard ⟨store.lists.size⟩).Closed name (store.addList elements).2 where
  outer := fun seen around => closed.outer seen (by simpa using around)
  bindings := closed.bindings
  kept := by
    intro list seen
    obtain ⟨inside, left⟩ := closed.kept seen
    refine ⟨?_, ?_⟩
    · simp only [Store.addList, Array.size_push]
      omega
    · -- A list in reach was there before the one that is thrown away.
      rintro (rfl | thrown)
      · exact absurd inside (Nat.lt_irrefl _)
      · exact left thrown
  elements := by
    intro list value seen member
    rw [Store.elements_addList_of_lt (closed.kept seen).1] at member
    exact closed.elements seen member
  functions := closed.functions

/-- A new function of a scope in reach, which does not name the variable, may come into reach. -/
theorem addClosure (closed : region.Closed name store) (seen : region.scopes closure.scope)
    (unnamed : name ∉ closure.body.names) :
    (region.addClosure ⟨store.closures.size⟩).Closed name (store.addClosure closure).2 where
  outer := fun seen around => closed.outer seen (by simpa using around)
  bindings := fun seen bound => (closed.bindings seen bound).mono (region.within_addClosure _)
  kept := closed.kept
  elements := fun seen member => (closed.elements seen member).mono (region.within_addClosure _)
  functions := by
    -- A function in reach is the new one, or one of those before it.
    intro place other known found
    simp only [Store.closure?, Store.addClosure, Array.getElem?_push] at found
    split at found
    · obtain rfl := Option.some.inj found
      exact ⟨seen, unnamed⟩
    · rename_i old
      rcases known with rfl | known
      · exact absurd rfl old
      · exact closed.functions known found

/-- A new scope inside a scope in reach may come into reach. -/
theorem addScope {parent : Option ScopeId} (closed : region.Closed name store)
    (seen : ∀ scope ∈ parent, region.scopes scope) :
    (region.addScope ⟨store.scopes.size⟩).Closed name (store.addScope parent).2 where
  outer := by
    -- Around the new scope there are itself and what is around its parent.
    intro scope around known member
    by_cases new : scope = ⟨store.scopes.size⟩
    · subst new
      rcases Store.mem_chain_addScope member with rfl | ⟨outer, directly, member⟩
      · exact .inl rfl
      · exact .inr (closed.outer (seen outer directly) member)
    · rw [Store.chain_addScope_of_ne new] at member
      exact .inr (closed.outer (known.resolve_left new) member)
  bindings := by
    intro scope other value known bound
    rw [Store.binding?_addScope] at bound
    rcases known with rfl | known
    · -- The new scope has no variables.
      exact absurd (Store.present_of_binding? bound) (Nat.lt_irrefl _)
    · exact (closed.bindings known bound).mono (region.within_addScope _)
  kept := closed.kept
  elements := fun seen member => (closed.elements seen member).mono (region.within_addScope _)
  functions := fun seen found =>
    have ⟨scope, unnamed⟩ := closed.functions seen found
    ⟨.inr scope, unnamed⟩

/-- The elements of a list may change to values in reach. -/
theorem modifyList (closed : region.Closed name store)
    (known : ∀ value ∈ change (store.elements list), region.Knows value) :
    region.Closed name (store.modifyList list change) where
  outer := fun seen around => closed.outer seen (by simpa using around)
  bindings := closed.bindings
  kept := fun seen => by simpa [Store.modifyList] using closed.kept seen
  elements := by
    -- An element of a list is one of the changed ones, or was one before.
    intro other value seen member
    rcases Store.mem_elements_modifyList member with changed | old
    · exact known value changed
    · exact closed.elements seen old
  functions := closed.functions

end Region.Closed

namespace Store.SoundBut

/-- A variable may get a value that is kept. -/
theorem define (sound : store.SoundBut discarded) (scope : ScopeId) (name : String)
    (kept : value.Kept discarded store.lists.size) :
    (store.define scope name value).SoundBut discarded where
  bindings := by
    intro place other given bound
    rcases binding?_define bound with ⟨-, -, rfl⟩ | old
    · exact kept
    · exact sound.bindings old
  elements := sound.elements

/-- A new list may be made of values that are kept, or thrown away at once. -/
theorem addList (sound : store.SoundBut discarded) (elements : Array Value)
    (kept : ¬ discarded ⟨store.lists.size⟩ →
      ∀ value ∈ elements, value.Kept discarded store.lists.size) :
    (store.addList elements).2.SoundBut discarded where
  bindings := by
    intro scope name value bound
    have old : store.binding? scope name = some value := bound
    exact (sound.bindings old).mono (by simp [Store.addList])
  elements := by
    -- The new list need not be looked into if it is thrown away.
    intro list value left member
    have size : (store.addList elements).2.lists.size = store.lists.size + 1 := by
      simp [Store.addList]
    have present := present_of_mem_elements member
    rw [size] at present ⊢
    rcases Nat.lt_succ_iff_lt_or_eq.mp present with old | new
    · rw [elements_addList_of_lt old] at member
      exact (sound.elements left member).mono (Nat.le_succ _)
    · obtain rfl : list = ⟨store.lists.size⟩ := congrArg ListId.mk new
      rw [elements_addList] at member
      exact (kept left value member).mono (Nat.le_succ _)

/-- The discarded lists may be more, as long as nothing holds the further ones. -/
theorem discard {further : ListId → Prop} (sound : store.SoundBut discarded)
    (more : ∀ list, discarded list → further list)
    (unheld : ∀ list, further list → discarded list ∨ store.lists.size ≤ list.index) :
    store.SoundBut further := by
  -- A value that was kept is a list that was there, which is none of the further ones.
  have kept {value : Value} (kept : value.Kept discarded store.lists.size) :
      value.Kept further store.lists.size := by
    intro list same
    obtain ⟨inside, left⟩ := kept list same
    refine ⟨inside, fun thrown => (unheld list thrown).elim left ?_⟩
    omega
  constructor
  · exact fun bound => kept (sound.bindings bound)
  · exact fun left member => kept (sound.elements (fun thrown => left (more _ thrown)) member)

/-- The elements of a list may change to values that are kept. -/
theorem modifyList {change : Array Value → Array Value} (sound : store.SoundBut discarded)
    (kept : ∀ value ∈ change (store.elements list), value.Kept discarded store.lists.size) :
    (store.modifyList list change).SoundBut discarded := by
  have size : (store.modifyList list change).lists.size = store.lists.size := by
    simp [Store.modifyList]
  constructor
  · intro scope name value bound
    rw [size]
    exact sound.bindings bound
  · intro other value left member
    rw [size]
    rcases mem_elements_modifyList member with changed | old
    · exact kept value changed
    · exact sound.elements left old

end Store.SoundBut

namespace Store.SameBut

variable {elements elements' : Array Value} {change change' : Array Value → Array Value}

/-- The same variable of both stores may get the same value. -/
theorem define (same : store.SameBut place name discarded store') (scope : ScopeId)
    (other : String) (value : Value) :
    (store.define scope other value).SameBut place name discarded
      (store'.define scope other value) where
  scopes := by simpa [Store.define] using same.scopes
  parents := by simpa using same.parents
  bindings := by
    -- The defined variable shows the same in both stores, and all others show what they did.
    intro shown shownName differs
    by_cases defined : shown = scope ∧ shownName = other
    · obtain ⟨rfl, rfl⟩ := defined
      rw [binding?_define_self, binding?_define_self, same.scopes]
    · have apart : shown ≠ scope ∨ shownName ≠ other := by
        rwa [not_and_or] at defined
      rw [binding?_define_of_ne apart, binding?_define_of_ne apart]
      exact same.bindings shown shownName differs
  count := same.count
  lists := same.lists
  closures := same.closures

/-- The variable in which the stores may differ may get any value in the second one. -/
theorem define_hidden (same : store.SameBut place name discarded store') (value : Value) :
    store.SameBut place name discarded (store'.define place name value) where
  scopes := by simpa [Store.define] using same.scopes
  parents := by simpa using same.parents
  bindings := by
    intro shown shownName differs
    rw [binding?_define_of_ne differs]
    exact same.bindings shown shownName differs
  count := same.count
  lists := same.lists
  closures := same.closures

/-- The same list may be made in both stores, and lists that are thrown away at once. -/
theorem addList (same : store.SameBut place name discarded store')
    (made : ¬ discarded ⟨store.lists.size⟩ → elements = elements') :
    (store.addList elements).2.SameBut place name discarded (store'.addList elements').2 where
  scopes := same.scopes
  parents := same.parents
  bindings := same.bindings
  count := by simpa [Store.addList] using same.count
  lists := by
    -- The lists made are at the same place of both stores.
    intro list kept
    simp only [Store.addList, Array.getElem?_push, ← same.count]
    split
    · rename_i new
      obtain rfl : list = ⟨store.lists.size⟩ := congrArg ListId.mk new
      rw [made kept]
    · exact same.lists list kept
  closures := same.closures

/-- More lists may be thrown away. -/
theorem discard {further : ListId → Prop} (same : store.SameBut place name discarded store')
    (more : ∀ list, discarded list → further list) :
    store.SameBut place name further store' :=
  { same with lists := fun list kept => same.lists list fun thrown => kept (more list thrown) }

/-- The same function may be made in both stores. -/
theorem addClosure (same : store.SameBut place name discarded store') (closure : Closure) :
    (store.addClosure closure).2.SameBut place name discarded (store'.addClosure closure).2 :=
  { same with closures := congrArg (·.push closure) same.closures }

/-- A new scope with the same parent may be made in both stores. -/
theorem addScope (same : store.SameBut place name discarded store') (parent : Option ScopeId) :
    (store.addScope parent).2.SameBut place name discarded (store'.addScope parent).2 where
  scopes := by simpa [Store.addScope] using same.scopes
  parents := by
    intro scope
    rw [parent?_addScope, parent?_addScope, same.scopes, same.parents]
  bindings := by simpa using same.bindings
  count := same.count
  lists := same.lists
  closures := same.closures

/-- The elements of a list may change in the same way in both stores. -/
theorem modifyList (same : store.SameBut place name discarded store')
    (changes : ∀ elements, store.lists[list.index]? = some elements →
      change elements = change' elements) :
    (store.modifyList list change).SameBut place name discarded
      (store'.modifyList list change') where
  scopes := same.scopes
  parents := same.parents
  bindings := same.bindings
  count := by simpa [Store.modifyList] using same.count
  lists := by
    intro other kept
    simp only [Store.modifyList, Array.getElem?_modify, ← same.lists other kept]
    split
    · rename_i changed
      rw [← changed]
      cases found : store.lists[list.index]? with
      | none => rfl
      | some elements => exact congrArg some (changes elements found)
    · rfl
  closures := same.closures

/-- Lists that are kept have the same elements. -/
theorem elements_eq (same : store.SameBut place name discarded store')
    (kept : ¬ discarded list) : store.elements list = store'.elements list := by
  unfold Store.elements
  rw [same.lists list kept]

/-- Both stores have the same functions. -/
theorem closure?_eq (same : store.SameBut place name discarded store') (closure : ClosureId) :
    store.closure? closure = store'.closure? closure := by
  unfold Store.closure?
  rw [same.closures]

/-- Both stores show the same under every other name. -/
theorem lookup_eq (same : store.SameBut place name discarded store') (scope : ScopeId)
    (differs : other ≠ name) : store.lookup scope other = store'.lookup scope other := by
  have shown : (fun id => store.binding? id other) = fun id => store'.binding? id other :=
    funext fun id => same.bindings id other (.inr differs)
  unfold Store.lookup
  rw [chain_eq_of_parent? same.parents, shown]

end Store.SameBut

namespace Store.Hidden

variable {elements elements' : Array Value} {change change' : Array Value → Array Value}
  {closure : Closure}

/-- Any variable that is not guarded may get a value in reach. -/
theorem define (hidden : store.Hidden secret region store') (known : region.Knows value)
    (permitted : scope ≠ secret.place ∨ ¬ secret.Guards other) :
    (store.define scope other value).Hidden secret region (store'.define scope other value) := by
  have kept := hidden.closed.value_kept known
  have kept' := hidden.same.count ▸ kept
  -- A guarded variable is another one.
  have apart {name : String} (guarded : secret.Guards name) :
      secret.place ≠ scope ∨ name ≠ other := by
    rcases permitted with scopes | unguarded
    · exact .inl scopes.symm
    · right
      rintro rfl
      exact unguarded guarded
  exact
    { same := hidden.same.define scope other value
      sound := hidden.sound.define scope other kept
      sound' := hidden.sound'.define scope other kept'
      closed := hidden.closed.define scope other known
      recent := hidden.recent
      longer := hidden.longer
      present := by simpa [Store.define] using hidden.present
      value := by
        rw [binding?_define_of_ne (apart (.inl rfl))]
        exact hidden.value
      fixed := fun member => by
        rw [binding?_define_of_ne (apart (.inr ⟨_, member⟩))]
        exact hidden.fixed member }

/-- The variable in which the stores may differ may get any number in the second one. -/
theorem advance (hidden : store.Hidden secret region store') (number : Number) :
    store.Hidden { secret with value := .number number } region
      (store'.define secret.place secret.name (.number number)) where
  same := hidden.same.define_hidden _
  sound := hidden.sound
  sound' := hidden.sound'.define _ _ nofun
  closed := hidden.closed
  recent := hidden.recent
  longer := hidden.longer
  present := hidden.present
  value := by
    rw [binding?_define_self, if_pos (hidden.same.scopes ▸ hidden.present)]
  fixed := fun {name value} member => by
    rw [binding?_define_of_ne (.inr (secret.apart _ member))]
    exact hidden.fixed member

/-- What has just been made is not thrown away. -/
theorem fresh (hidden : store.Hidden secret region store') :
    ¬ region.discarded ⟨store.lists.size⟩ :=
  fun thrown => Nat.lt_irrefl _ (hidden.recent thrown).2

/-- A list of values in reach may be made in both stores. -/
theorem addList (hidden : store.Hidden secret region store')
    (known : ∀ value ∈ elements, region.Knows value) :
    (store.addList elements).2.Hidden secret (region.addList ⟨store.lists.size⟩)
      (store'.addList elements).2 where
  same := hidden.same.addList fun _ => rfl
  sound := hidden.sound.addList elements fun _ value member =>
    hidden.closed.value_kept (known value member)
  sound' := hidden.sound'.addList elements fun _ value member =>
    hidden.same.count ▸ hidden.closed.value_kept (known value member)
  closed := hidden.closed.addList hidden.fresh known
  recent := fun thrown => by
    obtain ⟨since, inside⟩ := hidden.recent thrown
    exact ⟨since, by simp only [Store.addList, Array.size_push]; omega⟩
  longer := by
    have longer := hidden.longer
    simp only [Store.addList, Array.size_push]
    omega
  present := hidden.present
  value := hidden.value
  fixed := hidden.fixed

/-- Any two lists may be made in the stores and thrown away at once. -/
theorem discard (hidden : store.Hidden secret region store') (elements elements' : Array Value) :
    (store.addList elements).2.Hidden secret (region.discard ⟨store.lists.size⟩)
      (store'.addList elements').2 := by
  have more (list : ListId) (thrown : region.discarded list) :
      (region.discard ⟨store.lists.size⟩).discarded list := .inr thrown
  -- The list that is thrown away comes behind all that were there.
  have unheld (list : ListId) (thrown : (region.discard ⟨store.lists.size⟩).discarded list) :
      region.discarded list ∨ store.lists.size ≤ list.index := by
    rcases thrown with rfl | thrown
    · exact .inr (Nat.le_refl _)
    · exact .inl thrown
  have longer := hidden.longer
  exact
    { same := (hidden.same.discard more).addList fun kept => absurd (.inl rfl) kept
      sound := (hidden.sound.discard more unheld).addList elements
        fun kept => absurd (.inl rfl) kept
      sound' := (hidden.sound'.discard more (hidden.same.count ▸ unheld)).addList elements'
        fun kept => absurd (.inl (congrArg ListId.mk hidden.same.count.symm)) kept
      closed := hidden.closed.discard elements
      recent := by
        simp only [Store.addList, Array.size_push]
        rintro list (rfl | thrown)
        · exact ⟨longer, Nat.lt_succ_self _⟩
        · obtain ⟨since, inside⟩ := hidden.recent thrown
          exact ⟨since, Nat.lt_succ_of_lt inside⟩
      longer := by
        simp only [Store.addList, Array.size_push]
        omega
      present := hidden.present
      value := hidden.value
      fixed := hidden.fixed }

/-- A function of a scope in reach that does not name the variable may be made in both stores. -/
theorem addClosure (hidden : store.Hidden secret region store')
    (seen : region.scopes closure.scope) (unnamed : secret.name ∉ closure.body.names) :
    (store.addClosure closure).2.Hidden secret (region.addClosure ⟨store.closures.size⟩)
      (store'.addClosure closure).2 where
  same := hidden.same.addClosure closure
  sound := ⟨hidden.sound.bindings, hidden.sound.elements⟩
  sound' := ⟨hidden.sound'.bindings, hidden.sound'.elements⟩
  closed := hidden.closed.addClosure seen unnamed
  recent := hidden.recent
  longer := hidden.longer
  present := hidden.present
  value := hidden.value
  fixed := hidden.fixed

/-- A new scope inside a scope in reach may be made in both stores. -/
theorem addScope {parent : Option ScopeId} (hidden : store.Hidden secret region store')
    (seen : ∀ scope ∈ parent, region.scopes scope) :
    (store.addScope parent).2.Hidden secret (region.addScope ⟨store.scopes.size⟩)
      (store'.addScope parent).2 where
  same := hidden.same.addScope parent
  sound := ⟨fun bound => hidden.sound.bindings (by simpa using bound), hidden.sound.elements⟩
  sound' := ⟨fun bound => hidden.sound'.bindings (by simpa using bound), hidden.sound'.elements⟩
  closed := hidden.closed.addScope seen
  recent := hidden.recent
  longer := hidden.longer
  present := by
    have present := hidden.present
    simp only [Store.addScope, Array.size_push]
    omega
  value := by simpa using hidden.value
  fixed := fun member => by simpa using hidden.fixed member

/-- A new scope inside one in reach is not the one with the variable. -/
theorem enclose (hidden : store.Hidden secret region store') (seen : region.scopes scope) :
    (store.enclose scope).2.Hidden secret (region.addScope ⟨store.scopes.size⟩)
        (store'.enclose scope).2 ∧
      ∀ name, (⟨store.scopes.size⟩ : ScopeId) ≠ secret.place ∨ ¬ secret.Guards name := by
  constructor
  · exact hidden.addScope fun parent same => Option.some.inj same ▸ seen
  · -- The scope of the variable was there before.
    intro name
    left
    intro same
    have present := hidden.present
    rw [← same] at present
    exact Nat.lt_irrefl _ present

/-- A list in reach may change in the same way to values in reach. -/
theorem modifyList (hidden : store.Hidden secret region store')
    (changes : change (store.elements list) = change' (store.elements list))
    (known : ∀ value ∈ change (store.elements list), region.Knows value)
    (seen : region.lists list) :
    (store.modifyList list change).Hidden secret region (store'.modifyList list change') := by
  have kept (value : Value) (member : value ∈ change (store.elements list)) :=
    hidden.closed.value_kept (known value member)
  have elements := hidden.same.elements_eq (hidden.closed.kept seen).2
  exact
    { same := hidden.same.modifyList fun elements found => by
        simpa [Store.elements, found] using changes
      sound := hidden.sound.modifyList kept
      sound' := hidden.sound'.modifyList (by
        rw [← elements, ← changes, ← hidden.same.count]
        exact kept)
      closed := hidden.closed.modifyList known
      recent := fun thrown => by simpa [Store.modifyList] using hidden.recent thrown
      longer := by simpa [Store.modifyList] using hidden.longer
      present := hidden.present
      value := hidden.value
      fixed := hidden.fixed }

end Store.Hidden

namespace Coupling

/-- Two runs whose stores differ in a variable that nothing names and in lists thrown away. -/
def hidden (secret : Secret) : Coupling where
  World := Region
  grows := Region.Within
  spans := (· = ·)
  scopes := fun region scope scope' => scope = scope' ∧ region.scopes scope
  lists := fun region list list' => list = list' ∧ region.lists list
  closures := fun region closure closure' => closure = closure' ∧ region.closures closure
  stores := Store.Hidden secret
  permits := fun scope name => scope ≠ secret.place ∨ ¬ secret.Guards name
  lax := False
  speaks := fun name => name ≠ secret.name
  hosts := fun host host' => host = host' ∧ ∀ script text program,
    host.scripts script = .ok text → ({ name := script, text } : Source).program = .ok program →
      secret.name ∉ program.names

/-- Values correspond when they are the same and in reach. -/
theorem hidden_values {value value' : Value} :
    (hidden secret).Values region value value' ↔ value = value' ∧ region.Knows value := by
  constructor
  · intro alike
    cases alike with
    | list places => exact ⟨congrArg Value.list places.1, places.2⟩
    | closure places => exact ⟨congrArg Value.closure places.1, places.2⟩
    | number | text | builtin => exact ⟨rfl, trivial⟩
  · rintro ⟨rfl, known⟩
    cases value with
    | number number => exact .number number
    | text text => exact .text text
    | list list => exact .list ⟨rfl, known⟩
    | closure closure => exact .closure ⟨rfl, known⟩
    | builtin builtin => exact .builtin builtin

/-- Rows correspond when they are the same, of values in reach. -/
theorem hidden_rows {row row' : List Value} :
    (hidden secret).Rows region row row' ↔ row = row' ∧ ∀ value ∈ row, region.Knows value := by
  constructor
  · -- The induction goes along both rows.
    intro alike
    induction alike with
    | nil => exact ⟨rfl, nofun⟩
    | cons same _ ih =>
      obtain ⟨rfl, known⟩ := hidden_values.mp same
      obtain ⟨rfl, others⟩ := ih
      exact ⟨rfl, List.forall_mem_cons.mpr ⟨known, others⟩⟩
  · rintro ⟨rfl, known⟩
    exact List.forall₂_same.mpr fun value member => hidden_values.mpr ⟨rfl, known value member⟩

/-- The same for rows that are elements of lists. -/
theorem hidden_elements {elements elements' : Array Value} :
    (hidden secret).Rows region elements.toList elements'.toList ↔
      elements = elements' ∧ ∀ value ∈ elements, region.Knows value := by
  rw [hidden_rows, Array.toList_inj]
  simp only [Array.mem_toList_iff]

/-- A list in reach has corresponding elements in two stores that are alike. -/
theorem hidden_elements_of_seen (stores : store.Hidden secret region store')
    (seen : region.lists list) :
    (hidden secret).Rows region (store.elements list).toList (store'.elements list).toList :=
  hidden_elements.mpr ⟨stores.same.elements_eq (stores.closed.kept seen).2,
    fun _ member => stores.closed.elements seen member⟩

/-- Runs go on alike whatever value a variable has that nothing names. -/
theorem hidden_lawful (secret : Secret) : (hidden secret).Lawful where
  grows_refl := Region.Within.refl
  grows_trans := Region.Within.trans
  spans_refl := fun _ => rfl
  scopes_mono := fun grown places => ⟨places.1, grown.scopes _ places.2⟩
  lists_mono := fun grown places => ⟨places.1, grown.lists _ places.2⟩
  closures_mono := fun grown places => ⟨places.1, grown.closures _ places.2⟩
  elements := by
    rintro region store store' list _ stores ⟨rfl, seen⟩
    exact hidden_elements_of_seen stores seen
  text := by
    -- The text of a value only depends on the lists and functions that it leads to.
    intro region store store' value value' stores alike
    apply Store.text?_of_simulation _ _ alike
    · rintro list _ ⟨rfl, seen⟩
      exact hidden_elements_of_seen stores seen
    · rintro closure _ ⟨rfl, -⟩
      rw [stores.same.closure?_eq]
  closure? := by
    rintro region store store' place _ stores ⟨rfl, seen⟩
    rw [← stores.same.closure?_eq]
    cases found : store.closure? place with
    | none => exact .none
    | some closure =>
      exact .some ⟨rfl, rfl, rfl, Node.Similar.refl (fun _ => rfl) closure.body, rfl,
        (stores.closed.functions seen found).1⟩
  function := by
    rintro region store store' place _ closure stores ⟨rfl, seen⟩ found name member rfl
    exact (stores.closed.functions seen found).2 member
  lookup := by
    -- The nearest scope with the variable is in reach, since it is around one that is.
    rintro region store store' scope _ name spoken stores ⟨rfl, seen⟩
    rw [← stores.same.lookup_eq scope spoken]
    cases found : store.lookup scope name with
    | none => exact .none
    | some value =>
      obtain ⟨around, member, bound⟩ := List.exists_of_findSome?_eq_some found
      exact .some (hidden_values.mpr
        ⟨rfl, stores.closed.bindings (stores.closed.outer seen member) bound⟩)
  define := by
    rintro region store store' scope _ name value _ stores ⟨rfl, seen⟩ permitted alike
    obtain ⟨rfl, known⟩ := hidden_values.mp alike
    exact stores.define known permitted
  addList := by
    rintro region store store' elements _ stores alike
    obtain ⟨rfl, known⟩ := hidden_elements.mp alike
    exact ⟨_, region.within_addList _, ⟨congrArg ListId.mk stores.same.count, .inl rfl⟩,
      stores.addList known⟩
  addClosure := by
    rintro region store store' closure closure' stores alike spoken
    obtain ⟨name, parameters, body, form, scope⟩ := closure
    obtain ⟨_, _, body', _, _⟩ := closure'
    obtain ⟨rfl, rfl, rfl, bodies, rfl, seen⟩ := alike
    obtain rfl := Node.Similar.eq body body' bodies
    exact ⟨_, region.within_addClosure _,
      ⟨congrArg (fun made => ClosureId.mk made.size) stores.same.closures, .inl rfl⟩,
      stores.addClosure seen fun member => spoken _ member rfl⟩
  enclose := by
    rintro region store store' scope _ stores ⟨rfl, seen⟩
    exact ⟨_, region.within_addScope _,
      ⟨congrArg ScopeId.mk stores.same.scopes, .inl rfl⟩, stores.enclose seen⟩
  hosts_eq := fun hosts => hosts.1
  hosts_after := by
    rintro host after ⟨-, scripts⟩ same
    exact ⟨rfl, same ▸ scripts⟩
  script := by
    rintro host name text program ⟨-, scripts⟩ loaded read other member rfl
    exact scripts _ _ _ loaded read member

/-- Lists in reach may be changed alike. -/
theorem hidden_allowsChanges (secret : Secret) : (hidden secret).AllowsChanges := by
  -- What the changes make of the same elements is the same, and in reach.
  rintro region store store' list _ change change' stores ⟨rfl, seen⟩ changes
  have row := changes (store.elements list) (store.elements list) (hidden_elements.mpr
    ⟨rfl, fun _ member => stores.closed.elements seen member⟩)
  obtain ⟨same, known⟩ := hidden_elements.mp row
  exact stores.modifyList same known seen

end Coupling

end Scriptlet
