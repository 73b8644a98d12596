import Scriptlet.Proofs.Eval.Functions
import Scriptlet.Proofs.Store.Access
import Scriptlet.Proofs.Store.Matching

/-!
Two runs, the second of which keeps more lists: from some place on its lists have moved up, behind
the ones that it keeps, and nothing else is different.
-/

namespace Scriptlet

/-- Where a list is, among so many, and where it is when lists from a place on have moved up. -/
def ListId.Moved (start gap size : Nat) (list list' : ListId) : Prop :=
  list.index < size ∧ list'.index = if list.index < start then list.index else list.index + gap

/-- Two values that are the same, up to lists that have moved up. -/
abbrev Value.Moved (start gap size : Nat) : Value → Value → Prop :=
  Value.Similar (ListId.Moved start gap size) (· = ·)

/-- Two scopes with the same variables, up to lists that have moved up. -/
structure Scope.Moved (start gap size : Nat) (scope scope' : Scope) : Prop where
  parent : scope.parent = scope'.parent
  bindings (name : String) :
    Option.Rel (Value.Moved start gap size) scope.bindings[name]? scope'.bindings[name]?

/--
Two stores that are the same, up to ranges in functions and to lists that have moved up behind those
that only the second store keeps.
-/
structure Store.Moved (spans : Span → Span → Prop) (start : Nat) (kept : List (Array Value))
    (size : Nat) (store store' : Store) : Prop where
  count : store.lists.size = size
  count' : store'.lists.size = size + kept.length
  bound : start ≤ size
  keeps (place : Nat) (inside : place < kept.length) :
    store'.lists[start + place]? = kept[place]?
  elements (list list' : ListId) (places : list.Moved start kept.length size list') :
    List.Forall₂ (Value.Moved start kept.length size) (store.elements list).toList
      (store'.elements list').toList
  closures : List.Forall₂ (Closure.Reread spans) store.closures.toList store'.closures.toList
  scopes : List.Forall₂ (Scope.Moved start kept.length size) store.scopes.toList
    store'.scopes.toList

variable {spans : Span → Span → Prop} {start gap size later : Nat} {kept : List (Array Value)}
  {store store' : Store}

/-- Related rows have related items at each place, or none. -/
theorem forall₂_getElem? {α β : Type} {related : α → β → Prop} {row : Array α} {row' : Array β}
    (alike : List.Forall₂ related row.toList row'.toList) (place : Nat) :
    Option.Rel related row[place]? row'[place]? := by
  -- The induction goes along both rows, down to the place.
  rw [← Array.getElem?_toList, ← Array.getElem?_toList]
  generalize row.toList = items, row'.toList = items' at alike
  induction alike generalizing place with
  | nil => exact .none
  | cons same others ih =>
    cases place with
    | zero => exact .some same
    | succ place => exact ih place

/-- Related rows are related after a change at one place. -/
theorem forall₂_modify {α β : Type} {related : α → β → Prop} {change : α → α} {change' : β → β}
    {row : Array α} {row' : Array β} (alike : List.Forall₂ related row.toList row'.toList)
    (place : Nat) (changes : ∀ item item', related item item' →
      related (change item) (change' item')) :
    List.Forall₂ related (row.modify place change).toList (row'.modify place change').toList := by
  -- The induction goes along both rows, down to the place.
  rw [Array.toList_modify, Array.toList_modify]
  generalize row.toList = items, row'.toList = items' at alike
  induction alike generalizing place with
  | nil => cases place <;> exact .nil
  | cons same others ih =>
    cases place with
    | zero => exact .cons (changes _ _ same) others
    | succ place => exact .cons same (ih place)

/-- Related rows are related with one more related item each. -/
theorem forall₂_push {α β : Type} {related : α → β → Prop} {row : Array α} {row' : Array β}
    {item : α} {item' : β} (alike : List.Forall₂ related row.toList row'.toList)
    (same : related item item') :
    List.Forall₂ related (row.push item).toList (row'.push item').toList := by
  -- The new items are at the ends.
  rw [Array.toList_push, Array.toList_push]
  exact List.rel_append alike (.cons same .nil)

/-- Related rows have the same size. -/
theorem forall₂_size {α β : Type} {related : α → β → Prop} {row : Array α} {row' : Array β}
    (alike : List.Forall₂ related row.toList row'.toList) : row.size = row'.size := by
  -- The lists are equally long.
  have lengths := alike.length_eq
  rw [Array.length_toList, Array.length_toList] at lengths
  exact lengths

/-- A list among so many is one among more. -/
theorem ListId.Moved.mono {list list' : ListId} (grown : size ≤ later)
    (places : list.Moved start gap size list') : list.Moved start gap later list' :=
  ⟨Nat.lt_of_lt_of_le places.1 grown, places.2⟩

/-- Only one list moves to a place. -/
theorem ListId.Moved.index_eq {list list' other other' : ListId}
    (places : list.Moved start gap size list') (others : other.Moved start gap size other') :
    list.index = other.index ↔ list'.index = other'.index := by
  -- Moving up keeps the order of lists.
  rw [places.2, others.2]
  split <;> split <;> omega

/-- Values with lists among so many have them among more. -/
theorem Value.Moved.mono {value value' : Value} (grown : size ≤ later)
    (alike : value.Moved start gap size value') : value.Moved start gap later value' :=
  alike.imp (fun _ _ => ListId.Moved.mono grown) fun _ _ same => same

/-- Scopes with lists among so many have them among more. -/
theorem Scope.Moved.mono {scope scope' : Scope} (grown : size ≤ later)
    (alike : scope.Moved start gap size scope') : scope.Moved start gap later scope' := by
  -- Every variable keeps its value.
  refine ⟨alike.parent, ?_⟩
  intro name
  have bound := alike.bindings name
  generalize scope.bindings[name]? = value?, scope'.bindings[name]? = value?' at bound
  cases bound with
  | none => exact .none
  | some same => exact .some (same.mono grown)

/-- A list that has not moved so far does not move below a place behind it. -/
theorem ListId.Moved.behind {list list' : ListId} (places : list.Moved 0 0 size list') :
    list.Moved size gap size list' := by
  refine ⟨places.1, ?_⟩
  rw [places.2]
  simp only [places.1, ↓reduceIte, Nat.not_lt_zero, Nat.add_zero]

/-- A list below the place from which lists have moved up has not moved. -/
theorem ListId.Moved.before {list list' : ListId} (places : list.Moved size gap size list') :
    list.Moved 0 0 size list' := by
  refine ⟨places.1, ?_⟩
  rw [places.2]
  simp only [places.1, ↓reduceIte, Nat.not_lt_zero, Nat.add_zero]

/-- Values whose lists have not moved so far have lists that do not move below a place. -/
theorem Value.Moved.behind {value value' : Value} (alike : value.Moved 0 0 size value') :
    value.Moved size gap size value' :=
  alike.imp (fun _ _ => ListId.Moved.behind) fun _ _ same => same

namespace Store.Moved

/-- The parent of a scope is the same. -/
theorem parent?_eq (moved : store.Moved spans start kept size store') (scope : ScopeId) :
    store.parent? scope = store'.parent? scope := by
  -- The scopes at one place have the same parent, or are missing.
  have found := forall₂_getElem? moved.scopes scope.index
  unfold Store.parent?
  generalize store.scopes[scope.index]? = scope?, store'.scopes[scope.index]? = scope?' at found
  cases found with
  | none => rfl
  | some same => exact same.parent

/-- The scopes around a scope are the same. -/
theorem chain_eq (moved : store.Moved spans start kept size store') (scope : ScopeId) :
    store.chain scope = store'.chain scope :=
  Store.chain_eq_of_parent? moved.parent?_eq scope

/-- The variables of one scope correspond. -/
theorem binding? (moved : store.Moved spans start kept size store') (scope : ScopeId)
    (name : String) :
    Option.Rel (Value.Moved start kept.length size) (store.binding? scope name)
      (store'.binding? scope name) := by
  -- A scope that is missing has no variables.
  have found := forall₂_getElem? moved.scopes scope.index
  unfold Store.binding?
  generalize store.scopes[scope.index]? = scope?, store'.scopes[scope.index]? = scope?' at found
  cases found with
  | none => exact .none
  | some same => exact same.bindings name

/-- The variables that one scope sees correspond. -/
theorem lookup (moved : store.Moved spans start kept size store') (scope : ScopeId)
    (name : String) :
    Option.Rel (Value.Moved start kept.length size) (store.lookup scope name)
      (store'.lookup scope name) := by
  -- The nearest scope with the variable is the same.
  unfold Store.lookup
  rw [moved.chain_eq scope]
  induction store'.chain scope with
  | nil => exact .none
  | cons nearest rest ih =>
    have bound := moved.binding? nearest name
    rw [List.findSome?_cons, List.findSome?_cons]
    generalize store.binding? nearest name = value?, store'.binding? nearest name = value?' at bound
    cases bound with
    | none => exact ih
    | some same => exact .some same

/-- Functions at one place correspond. -/
theorem closure? (moved : store.Moved spans start kept size store') (closure : ClosureId) :
    store.Rereads spans store' closure closure :=
  forall₂_getElem? moved.closures closure.index

/-- Corresponding values look the same, and are shown as the same. -/
theorem matches_values (moved : store.Moved spans start kept size store') {value value' : Value}
    (alike : value.Moved start kept.length size value') :
    store.Matches spans store' value value' := by
  -- Lists that have moved up keep corresponding elements.
  apply Store.Matches.of_simulation moved.elements _ alike
  rintro closure _ rfl
  exact moved.closure? closure

/-- The same variable may get corresponding values. -/
theorem define (moved : store.Moved spans start kept size store') (scope : ScopeId)
    (name : String) {value value' : Value} (alike : value.Moved start kept.length size value') :
    (store.define scope name value).Moved spans start kept size
      (store'.define scope name value') := by
  -- Only the bindings of one scope change, and they change alike.
  have scopes : List.Forall₂ (Scope.Moved start kept.length size)
      (store.define scope name value).scopes.toList
      (store'.define scope name value').scopes.toList := by
    apply forall₂_modify moved.scopes
    intro found found' same
    refine ⟨same.parent, ?_⟩
    intro other
    rw [Std.ExtTreeMap.getElem?_insert, Std.ExtTreeMap.getElem?_insert]
    split
    · exact .some alike
    · exact same.bindings other
  exact { moved with scopes }

/-- New lists of corresponding elements correspond among one more list. -/
theorem addList (moved : store.Moved spans start kept size store')
    {elements elements' : Array Value}
    (alike : List.Forall₂ (Value.Moved start kept.length size) elements.toList elements'.toList) :
    (store.addList elements).1.Moved start kept.length (size + 1) (store'.addList elements').1 ∧
      (store.addList elements).2.Moved spans start kept (size + 1)
        (store'.addList elements').2 := by
  -- The new lists stand behind all others, whose elements stay.
  have bound := moved.bound
  have placed : (store.addList elements).1.Moved start kept.length (size + 1)
      (store'.addList elements').1 := by
    simp only [ListId.Moved, Store.addList, moved.count, moved.count', Nat.not_lt.mpr bound,
      ↓reduceIte, Nat.lt_succ_self, and_self]
  refine ⟨placed, ?_⟩
  constructor
  case count => simp only [Store.addList, Array.size_push, moved.count]
  case count' =>
    simp only [Store.addList, Array.size_push, moved.count']
    omega
  case bound => omega
  case closures => exact moved.closures
  case scopes => exact moved.scopes.imp fun _ _ same => same.mono (Nat.le_succ size)
  case keeps =>
    -- The lists that are kept are old ones.
    intro place inside
    have old' : start + place < store'.lists.size := by
      rw [moved.count']
      omega
    simp only [Store.addList]
    rw [Array.getElem?_push_lt old', ← Array.getElem?_eq_getElem, moved.keeps place inside]
  case elements =>
    intro list list' places
    have placesBefore := places.2
    by_cases old : list.index < size
    · have row := moved.elements list list' ⟨old, placesBefore⟩
      have old' : list'.index < store'.lists.size := by
        rw [placesBefore, moved.count']
        split <;> omega
      rw [Store.elements_addList_of_lt (moved.count ▸ old), Store.elements_addList_of_lt old']
      exact row.imp fun _ _ same => same.mono (Nat.le_succ size)
    · -- The only other list is the new one.
      have inside := places.1
      have last : list.index = store.lists.size := by
        rw [moved.count]
        omega
      have last' : list'.index = store'.lists.size := by
        rw [placesBefore, moved.count', last, moved.count]
        split <;> omega
      have same : list = ⟨store.lists.size⟩ := congrArg ListId.mk last
      have same' : list' = ⟨store'.lists.size⟩ := congrArg ListId.mk last'
      rw [same, same', Store.elements_addList, Store.elements_addList]
      exact alike.imp fun _ _ same => same.mono (Nat.le_succ size)

/-- A list that only the second store keeps moves up the lists that both make from then on. -/
theorem keepList (moved : store.Moved spans 0 [] size store') (elements : Array Value) :
    store.Moved spans size [elements] size (store'.addList elements).2 := by
  constructor
  case count => exact moved.count
  case count' => simp only [Store.addList, Array.size_push, moved.count', List.length_singleton,
    List.length_nil, Nat.add_zero]
  case bound => exact Nat.le_refl size
  case closures => exact moved.closures
  case keeps =>
    -- The list stands behind all others.
    intro place inside
    obtain rfl : place = 0 := Nat.lt_one_iff.mp inside
    have count : store'.lists.size = size := moved.count'
    simp only [Store.addList, Nat.add_zero, ← count, Array.getElem?_push_size]
    rfl
  case scopes =>
    apply moved.scopes.imp
    intro scope scope' same
    refine ⟨same.parent, ?_⟩
    intro name
    have bound := same.bindings name
    generalize scope.bindings[name]? = value?, scope'.bindings[name]? = value?' at bound
    cases bound with
    | none => exact .none
    | some same => exact .some same.behind
  case elements =>
    -- So far no list has moved, and all lists are below the one that is kept.
    intro list list' after
    have before := after.before
    have old' : list'.index < store'.lists.size := by
      rw [before.2, moved.count']
      have inside := before.1
      split <;> omega
    rw [Store.elements_addList_of_lt old']
    exact (moved.elements list list' before).imp fun _ _ same => same.behind

/-- New functions that are built alike are at the same place. -/
theorem addClosure (moved : store.Moved spans start kept size store') {closure closure' : Closure}
    (alike : closure.Reread spans closure') :
    (store.addClosure closure).1 = (store'.addClosure closure').1 ∧
      (store.addClosure closure).2.Moved spans start kept size (store'.addClosure closure').2 := by
  -- Both stores have as many functions.
  have sizes := forall₂_size moved.closures
  have closures : List.Forall₂ (Closure.Reread spans)
      (store.addClosure closure).2.closures.toList
      (store'.addClosure closure').2.closures.toList := forall₂_push moved.closures alike
  exact ⟨congrArg ClosureId.mk sizes, { moved with closures }⟩

/-- New scopes with the same parent are at the same place. -/
theorem addScope (moved : store.Moved spans start kept size store') (parent : Option ScopeId) :
    (store.addScope parent).1 = (store'.addScope parent).1 ∧
      (store.addScope parent).2.Moved spans start kept size (store'.addScope parent).2 := by
  -- Both stores have as many scopes, and the new ones have no variables.
  have sizes := forall₂_size moved.scopes
  have scopes : List.Forall₂ (Scope.Moved start kept.length size)
      (store.addScope parent).2.scopes.toList (store'.addScope parent).2.scopes.toList := by
    apply forall₂_push moved.scopes
    refine ⟨rfl, ?_⟩
    intro name
    simp only [Std.ExtTreeMap.getElem?_empty]
    exact .none
  exact ⟨congrArg ScopeId.mk sizes, { moved with scopes }⟩

/-- New scopes inside the same scope are at the same place. -/
theorem enclose (moved : store.Moved spans start kept size store') (scope : ScopeId) :
    (store.enclose scope).1 = (store'.enclose scope).1 ∧
      (store.enclose scope).2.Moved spans start kept size (store'.enclose scope).2 :=
  moved.addScope (some scope)

/-- Corresponding lists may be changed alike. -/
theorem modifyList (moved : store.Moved spans start kept size store') {list list' : ListId}
    (places : list.Moved start kept.length size list')
    {change change' : Array Value → Array Value}
    (changes : ∀ elements elements' : Array Value,
      List.Forall₂ (Value.Moved start kept.length size) elements.toList elements'.toList →
      List.Forall₂ (Value.Moved start kept.length size) (change elements).toList
        (change' elements').toList) :
    (store.modifyList list change).Moved spans start kept size
      (store'.modifyList list' change') := by
  -- Both lists are there, and every other list stays.
  have inside : list.index < store.lists.size := by rw [moved.count]; exact places.1
  have inside' : list'.index < store'.lists.size := by
    rw [places.2, moved.count']
    have bound := places.1
    split <;> omega
  have elements (other other' : ListId) (others : other.Moved start kept.length size other') :
      List.Forall₂ (Value.Moved start kept.length size)
        ((store.modifyList list change).elements other).toList
        ((store'.modifyList list' change').elements other').toList := by
    have row := moved.elements other other' others
    have same := places.index_eq others
    simp only [Store.modifyList, Store.elements, Array.getElem?_modify]
    simp only [Store.elements] at row
    by_cases changed : list.index = other.index
    · have changed' := same.mp changed
      rw [← changed, ← changed', Array.getElem?_eq_getElem inside,
        Array.getElem?_eq_getElem inside'] at row
      simp only [← changed, ← changed', ↓reduceIte, Array.getElem?_eq_getElem inside,
        Array.getElem?_eq_getElem inside', Option.map_some, Option.getD_some]
      exact changes _ _ row
    · have changed' : ¬ list'.index = other'.index := fun equal => changed (same.mpr equal)
      simp only [changed, changed', ↓reduceIte]
      exact row
  have count : (store.modifyList list change).lists.size = size := by
    simp only [Store.modifyList, Array.size_modify, moved.count]
  have count' : (store'.modifyList list' change').lists.size = size + kept.length := by
    simp only [Store.modifyList, Array.size_modify, moved.count']
  have keeps (place : Nat) (inside : place < kept.length) :
      (store'.modifyList list' change').lists[start + place]? = kept[place]? := by
    -- A list that corresponds to another one is not one of those that are kept.
    have other : list'.index ≠ start + place := by
      rw [places.2]
      split <;> omega
    simp only [Store.modifyList, Array.getElem?_modify, other, ↓reduceIte]
    exact moved.keeps place inside
  exact { moved with elements, count, count', keeps }

end Store.Moved

namespace Coupling

/--
Two runs whose stores are the same, up to ranges in a relation and to lists that have moved up
behind those that only the second run keeps.
-/
def moved (spans : Span → Span → Prop) (start : Nat) (kept : List (Array Value)) : Coupling where
  World := Nat
  grows := (· ≤ ·)
  spans := spans
  scopes := fun _ => (· = ·)
  lists := ListId.Moved start kept.length
  closures := fun _ => (· = ·)
  stores := Store.Moved spans start kept
  permits := fun _ _ => True
  lax := False

/-- Runs go on alike when lists have moved up. -/
theorem moved_lawful (reflexive : ∀ span, spans span span) (start : Nat)
    (kept : List (Array Value)) : (moved spans start kept).Lawful where
  grows_refl := Nat.le_refl
  grows_trans := Nat.le_trans
  spans_refl := reflexive
  scopes_mono := fun _ places => places
  lists_mono := ListId.Moved.mono
  closures_mono := fun _ places => places
  elements := fun stores places => stores.elements _ _ places
  text := fun stores alike => (stores.matches_values alike).text
  closure? := by
    rintro world store store' closure _ stores rfl
    exact stores.closure? closure
  function := fun _ _ _ _ _ => trivial
  lookup := by
    rintro world store store' scope _ name _ stores rfl
    exact stores.lookup scope name
  define := by
    rintro world store store' scope _ name value value' stores rfl permitted alike
    exact stores.define scope name alike
  addList := by
    intro world store store' elements elements' stores alike
    obtain ⟨places, added⟩ := stores.addList alike
    exact ⟨Nat.succ world, Nat.le_succ world, places, added⟩
  addClosure := by
    intro world store store' closure closure' stores alike _
    obtain ⟨places, added⟩ := stores.addClosure alike
    exact ⟨world, Nat.le_refl world, places, added⟩
  enclose := by
    rintro world store store' scope _ stores rfl
    obtain ⟨places, added⟩ := stores.enclose scope
    exact ⟨world, Nat.le_refl world, places, added, fun _ => trivial⟩
  hosts_eq := fun same => same
  hosts_after := fun _ _ => rfl
  script := fun _ _ _ _ _ => trivial

/-- Lists that have moved up may be changed alike. -/
theorem moved_allowsChanges (start : Nat) (kept : List (Array Value)) :
    (moved spans start kept).AllowsChanges :=
  fun stores places changes => stores.modifyList places changes

/-- The scope of a program is the same in both runs. -/
theorem moved_frames (globals scope : ScopeId) :
    (moved spans start kept).Frames size CallChain.Programs (.ofProgram globals scope)
      (.ofProgram globals scope) :=
  Frames.ofProgram rfl

end Coupling

end Scriptlet
