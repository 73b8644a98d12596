import Scriptlet.Proofs.Eval.Functions
import Scriptlet.Proofs.Store.Access
import Scriptlet.Proofs.Store.Matching

/-!
Two runs, the second of which starts in a store where more has been made: whatever a run makes is at
a later place there, and nothing else is different.
-/

namespace Scriptlet

/-- Two rows with related items, whose places in the second one may be others. -/
def Carried {α β : Type} (place : Nat → Nat) (related : α → β → Prop) (row : Array α)
    (row' : Array β) : Prop :=
  ∀ index, Option.Rel related row[index]? row'[place index]?

namespace Carried

variable {α β : Type} {place : Nat → Nat} {related : α → β → Prop} {row : Array α} {row' : Array β}

/-- Related items may be put at the ends of both rows. -/
theorem push {item : α} {item' : β} (carried : Carried place related row row')
    (injective : place.Injective) (sizes : place row.size = row'.size)
    (same : related item item') : Carried place related (row.push item) (row'.push item') := by
  -- Only the place behind the first row is the one behind the second row.
  intro index
  rw [Array.getElem?_push, Array.getElem?_push, ← sizes]
  by_cases last : index = row.size
  · simp only [last, ↓reduceIte]
    exact .some same
  · have last' : place index ≠ place row.size := fun equal => last (injective equal)
    simp only [last, last', ↓reduceIte]
    exact carried index

/-- The item at one place may be changed alike in both rows. -/
theorem modify {change : α → α} {change' : β → β} (carried : Carried place related row row')
    (injective : place.Injective) (index : Nat)
    (changes : ∀ item item', related item item' → related (change item) (change' item')) :
    Carried place related (row.modify index change) (row'.modify (place index) change') := by
  -- Every other place of the first row is another place of the second row.
  intro other
  have alike := carried other
  rw [Array.getElem?_modify, Array.getElem?_modify]
  by_cases changed : index = other
  · simp only [changed, ↓reduceIte]
    generalize row[other]? = item?, row'[place other]? = item?' at alike
    cases alike with
    | none => exact .none
    | some same => exact .some (changes _ _ same)
  · have changed' : place index ≠ place other := fun equal => changed (injective equal)
    simp only [changed, changed', ↓reduceIte]
    exact alike

end Carried

/-- How much more has been made in the second store. -/
structure Store.Gap where
  scopes : Nat
  lists : Nat
  closures : Nat

namespace Store.Gap

/-- The place of a scope in the second store: that of the global one, or a later one. -/
def scope (gap : Gap) (index : Nat) : Nat :=
  if index = 0 then 0 else index + gap.scopes

/-- Scopes are in the same order in the second store. -/
theorem scope_strictMono (gap : Gap) : StrictMono gap.scope := by
  intro index index' less
  unfold scope
  split <;> split <;> omega

/-- Scopes at different places are at different places in the second store. -/
theorem scope_injective (gap : Gap) : gap.scope.Injective :=
  gap.scope_strictMono.injective

end Store.Gap

/-- A scope and its place in the second store. -/
def ScopeId.Shifted (gap : Store.Gap) (scope scope' : ScopeId) : Prop :=
  scope'.index = gap.scope scope.index

/-- A list and its place in the second store. -/
def ListId.Shifted (gap : Store.Gap) (list list' : ListId) : Prop :=
  list'.index = list.index + gap.lists

/-- A function and its place in the second store. -/
def ClosureId.Shifted (gap : Store.Gap) (closure closure' : ClosureId) : Prop :=
  closure'.index = closure.index + gap.closures

/-- Two values that are the same, up to places that are later. -/
abbrev Value.Shifted (gap : Store.Gap) : Value → Value → Prop :=
  Value.Similar (ListId.Shifted gap) (ClosureId.Shifted gap)

/-- Two functions that are the same, up to places that are later. -/
abbrev Closure.Shifted (gap : Store.Gap) : Closure → Closure → Prop :=
  Closure.Similar (· = ·) (ScopeId.Shifted gap)

/-- Two scopes that are the same, up to places that are later. -/
structure Scope.Shifted (gap : Store.Gap) (scope scope' : Scope) : Prop where
  parent : Option.Rel (ScopeId.Shifted gap) scope.parent scope'.parent
  bindings (name : String) :
    Option.Rel (Value.Shifted gap) scope.bindings[name]? scope'.bindings[name]?

/-- Two stores, the second of which has more scopes, lists and functions before the others. -/
structure Store.Shifted (gap : Store.Gap) (store store' : Store) : Prop where
  globals : 0 < store.scopes.size
  scopeCount : gap.scope store.scopes.size = store'.scopes.size
  listCount : store.lists.size + gap.lists = store'.lists.size
  closureCount : store.closures.size + gap.closures = store'.closures.size
  scopes : Carried gap.scope (Scope.Shifted gap) store.scopes store'.scopes
  lists : Carried (· + gap.lists) (fun elements elements' =>
    List.Forall₂ (Value.Shifted gap) elements.toList elements'.toList) store.lists store'.lists
  closures : Carried (· + gap.closures) (Closure.Shifted gap) store.closures store'.closures

namespace Store.Shifted

variable {gap : Store.Gap} {store store' : Store} {scope scope' : ScopeId} {list list' : ListId}
  {closure closure' : ClosureId}

/-- Lists have corresponding elements. -/
theorem elements (shifted : store.Shifted gap store') (places : list.Shifted gap list') :
    List.Forall₂ (Value.Shifted gap) (store.elements list).toList
      (store'.elements list').toList := by
  -- Lists that are missing have no elements.
  have found := shifted.lists list.index
  unfold Store.elements
  rw [show list'.index = list.index + gap.lists from places]
  generalize store.lists[list.index]? = row?, store'.lists[list.index + gap.lists]? = row?' at found
  cases found with
  | none => exact .nil
  | some rows => exact rows

/-- Functions correspond, or are missing. -/
theorem closure? (shifted : store.Shifted gap store') (places : closure.Shifted gap closure') :
    Option.Rel (Closure.Shifted gap) (store.closure? closure) (store'.closure? closure') := by
  unfold Store.closure?
  rw [show closure'.index = closure.index + gap.closures from places]
  exact shifted.closures closure.index

/-- Corresponding values show the same text. -/
theorem text {value value' : Value} (shifted : store.Shifted gap store')
    (alike : value.Shifted gap value') : store.text? value = store'.text? value' := by
  apply text?_of_simulation (fun _ _ => shifted.elements) _ alike
  intro closure closure' places
  have found := shifted.closure? places
  generalize store.closure? closure = closure?, store'.closure? closure' = closure?' at found
  cases found with
  | none => rfl
  | some same => exact congrArg some same.text

/-- The parents of corresponding scopes correspond. -/
theorem parent? (shifted : store.Shifted gap store') (places : scope.Shifted gap scope') :
    Option.Rel (ScopeId.Shifted gap) (store.parent? scope) (store'.parent? scope') := by
  have found := shifted.scopes scope.index
  unfold Store.parent?
  rw [show scope'.index = gap.scope scope.index from places]
  generalize store.scopes[scope.index]? = scope?, store'.scopes[gap.scope scope.index]? = scope?'
    at found
  cases found with
  | none => exact .none
  | some same => exact same.parent

/-- The scopes around corresponding scopes correspond. -/
theorem chain (shifted : store.Shifted gap store') (places : scope.Shifted gap scope') :
    List.Forall₂ (ScopeId.Shifted gap) (store.chain scope) (store'.chain scope') := by
  -- The induction goes outward; parents are older in both stores, or in neither one.
  fun_induction store.chain scope generalizing scope' with
  | case1 scope last =>
    have parents := shifted.parent? places
    generalize last' : store'.parent? scope' = around? at parents
    rw [last] at parents
    cases parents with
    | none => exact chain_of_root last' ▸ .cons places .nil
  | case2 scope around next older ih =>
    have parents := shifted.parent? places
    generalize next' : store'.parent? scope' = around? at parents
    rw [next] at parents
    cases parents with
    | @some _ around' arounds =>
      have older' : around'.index < scope'.index := by
        rw [arounds, places]
        exact gap.scope_strictMono older
      rw [chain_of_parent next' older']
      exact .cons places (ih arounds)
  | case3 scope around next newer =>
    have parents := shifted.parent? places
    generalize next' : store'.parent? scope' = around? at parents
    rw [next] at parents
    cases parents with
    | @some _ around' arounds =>
      have newer' : ¬ around'.index < scope'.index := by
        rw [arounds, places]
        exact fun older => newer (gap.scope_strictMono.lt_iff_lt.mp older)
      rw [Store.chain, next']
      simp only [newer', ↓reduceIte]
      exact .cons places .nil

/-- The variables of corresponding scopes correspond. -/
theorem binding? (shifted : store.Shifted gap store') (places : scope.Shifted gap scope')
    (name : String) :
    Option.Rel (Value.Shifted gap) (store.binding? scope name) (store'.binding? scope' name) := by
  have found := shifted.scopes scope.index
  unfold Store.binding?
  rw [show scope'.index = gap.scope scope.index from places]
  generalize store.scopes[scope.index]? = scope?, store'.scopes[gap.scope scope.index]? = scope?'
    at found
  cases found with
  | none => exact .none
  | some same => exact same.bindings name

/-- The variables that corresponding scopes see correspond. -/
theorem lookup (shifted : store.Shifted gap store') (places : scope.Shifted gap scope')
    (name : String) :
    Option.Rel (Value.Shifted gap) (store.lookup scope name) (store'.lookup scope' name) := by
  -- The induction goes along both rows of scopes, to the nearest ones with the variable.
  have chains := shifted.chain places
  unfold Store.lookup
  generalize store.chain scope = chain, store'.chain scope' = chain' at chains
  induction chains with
  | nil => exact .none
  | @cons nearest nearest' rest rest' places others ih =>
    have bound := shifted.binding? places name
    rw [List.findSome?_cons, List.findSome?_cons]
    generalize store.binding? nearest name = value?, store'.binding? nearest' name = value?'
      at bound
    cases bound with
    | none => exact ih
    | some same => exact .some same

/-- Variables of corresponding scopes may get corresponding values. -/
theorem define {value value' : Value} (shifted : store.Shifted gap store')
    (places : scope.Shifted gap scope') (name : String) (alike : value.Shifted gap value') :
    (store.define scope name value).Shifted gap (store'.define scope' name value') := by
  have changes (found found' : Scope) (same : found.Shifted gap found') :
      Scope.Shifted gap { found with bindings := found.bindings.insert name value }
        { found' with bindings := found'.bindings.insert name value' } := by
    refine ⟨same.parent, ?_⟩
    intro other
    rw [Std.ExtTreeMap.getElem?_insert, Std.ExtTreeMap.getElem?_insert]
    split
    · exact .some alike
    · exact same.bindings other
  have changed := shifted.scopes.modify gap.scope_injective scope.index changes
  rw [show gap.scope scope.index = scope'.index from places.symm] at changed
  exact
    { shifted with
      globals := by simpa only [Store.define, Array.size_modify] using shifted.globals
      scopeCount := by simpa only [Store.define, Array.size_modify] using shifted.scopeCount
      scopes := changed }

/-- New lists of corresponding elements correspond. -/
theorem addList {elements elements' : Array Value} (shifted : store.Shifted gap store')
    (alike : List.Forall₂ (Value.Shifted gap) elements.toList elements'.toList) :
    (store.addList elements).1.Shifted gap (store'.addList elements').1 ∧
      (store.addList elements).2.Shifted gap (store'.addList elements').2 := by
  refine ⟨shifted.listCount.symm, { shifted with listCount := ?_, lists := ?_ }⟩
  · have count := shifted.listCount
    simp only [Store.addList, Array.size_push]
    omega
  · exact shifted.lists.push (fun _ _ => Nat.add_right_cancel) shifted.listCount alike

/-- New functions that are built alike correspond. -/
theorem addClosure {closure closure' : Closure} (shifted : store.Shifted gap store')
    (alike : closure.Shifted gap closure') :
    (store.addClosure closure).1.Shifted gap (store'.addClosure closure').1 ∧
      (store.addClosure closure).2.Shifted gap (store'.addClosure closure').2 := by
  refine ⟨shifted.closureCount.symm, { shifted with closureCount := ?_, closures := ?_ }⟩
  · have count := shifted.closureCount
    simp only [Store.addClosure, Array.size_push]
    omega
  · exact shifted.closures.push (fun _ _ => Nat.add_right_cancel) shifted.closureCount alike

/-- New scopes inside corresponding scopes correspond. -/
theorem enclose (shifted : store.Shifted gap store') (places : scope.Shifted gap scope') :
    (store.enclose scope).1.Shifted gap (store'.enclose scope').1 ∧
      (store.enclose scope).2.Shifted gap (store'.enclose scope').2 := by
  -- The new scopes have no variables, and their parents correspond.
  have globals := shifted.globals
  have count := shifted.scopeCount
  refine ⟨count.symm, { shifted with globals := ?_, scopeCount := ?_, scopes := ?_ }⟩
  · simp only [Store.enclose, Store.addScope, Array.size_push]
    omega
  · simp only [Store.enclose, Store.addScope, Array.size_push, ← count, Store.Gap.scope]
    split <;> split <;> omega
  · apply shifted.scopes.push gap.scope_injective count
    refine ⟨.some places, ?_⟩
    intro name
    simp only [Std.ExtTreeMap.getElem?_empty]
    exact .none

/-- Corresponding lists may be changed alike. -/
theorem modifyList (shifted : store.Shifted gap store') (places : list.Shifted gap list')
    {change change' : Array Value → Array Value}
    (changes : ∀ elements elements' : Array Value,
      List.Forall₂ (Value.Shifted gap) elements.toList elements'.toList →
      List.Forall₂ (Value.Shifted gap) (change elements).toList (change' elements').toList) :
    (store.modifyList list change).Shifted gap (store'.modifyList list' change') := by
  have changed := shifted.lists.modify (fun _ _ => Nat.add_right_cancel) list.index changes
  rw [show list.index + gap.lists = list'.index from places.symm] at changed
  exact
    { shifted with
      listCount := by simpa only [Store.modifyList, Array.size_modify] using shifted.listCount
      lists := changed }

end Store.Shifted

namespace Coupling

variable (gap : Store.Gap)

/-- Two runs whose stores are the same, up to places that are later in the second one. -/
def shifted : Coupling where
  World := Unit
  grows := fun _ _ => True
  spans := (· = ·)
  scopes := fun _ => ScopeId.Shifted gap
  lists := fun _ => ListId.Shifted gap
  closures := fun _ => ClosureId.Shifted gap
  stores := fun _ => Store.Shifted gap
  permits := fun _ _ => True
  lax := False

/-- Runs go on alike when more has been made before one of them. -/
theorem shifted_lawful : (shifted gap).Lawful where
  grows_refl := fun _ => trivial
  grows_trans := fun _ _ => trivial
  spans_refl := fun _ => rfl
  scopes_mono := fun _ places => places
  lists_mono := fun _ places => places
  closures_mono := fun _ places => places
  elements := fun stores places => stores.elements places
  text := fun stores alike => stores.text alike
  closure? := fun stores places => stores.closure? places
  function := fun _ _ _ _ _ => trivial
  lookup := fun _ stores places => stores.lookup places _
  define := fun stores places _ alike => stores.define places _ alike
  addList := fun stores alike => ⟨(), trivial, stores.addList alike⟩
  addClosure := fun stores alike _ => ⟨(), trivial, stores.addClosure alike⟩
  enclose := fun stores places =>
    have ⟨inner, enclosed⟩ := stores.enclose places
    ⟨(), trivial, inner, enclosed, fun _ => trivial⟩
  hosts_eq := fun same => same
  hosts_after := fun _ _ => rfl
  script := fun _ _ _ _ _ => trivial

/-- Lists at later places may be changed alike. -/
theorem shifted_allowsChanges : (shifted gap).AllowsChanges :=
  fun stores places changes => stores.modifyList places changes

end Coupling

end Scriptlet
