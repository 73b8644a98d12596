import Scriptlet.Proofs.Numeric.NumberOrder
import Scriptlet.Proofs.Session.Sound
import Scriptlet.Proofs.Session.Unshared
import Scriptlet.Store.Equality

/-!
Copies of values. A list and its copy are two lists of the same elements, so that they look the same
when the copy is made, and calls that change one of them do not change the other. Lists inside them
are not copied: they equal themselves, whatever is in them, and are changed through both.
-/

namespace Scriptlet

/-- Whether a value is a float that is no number. -/
def Value.isNaN : Value → Bool
  | .number one => one.isNaN
  | _ => false

namespace Eval

/--
The states that calls of the functions that change lists lead to, one after another, when all are
given the same list to change. A call may fail.
-/
inductive Mutated (list : ListId) (state : State) : State → Prop where
  | none : Mutated list state state
  | call {middle after : State} {evaluate : Evaluator} {frame : Frame} {site : Span}
    {function : Builtin} {given : List Value} (earlier : Mutated list state middle)
    (mutates : function.mutates)
    (ended : (callValue builtin evaluate frame site (.builtin function) (.list list :: given)
      middle).after? = some after) :
    Mutated list state after

/-- Such calls leave every other list as it is. -/
theorem Mutated.elements {list other : ListId} {state after : State}
    (mutated : Mutated list state after) (apart : other ≠ list) :
    after.store.elements other = state.store.elements other := by
  -- The induction is on the calls; each of them changes at most its own list.
  induction mutated with
  | none => rfl
  | call earlier mutates ended ih =>
    obtain ⟨change, changed⟩ := changes_callValue mutates _ _ ended
    rw [changed, Store.elements_modifyList_of_ne apart, ih]

end Eval

namespace Store

variable {store : Store} {list other : ListId} {value : Value}

/-- A value equals itself unless it is a number that does not. -/
theorem sameWithin_self (store : Store) (depth : Nat) (value : Value) :
    store.sameWithin depth value value = true ↔ value.isNaN = false := by
  cases value with
  | number number =>
    rw [sameWithin]
    exact number.same_self_iff
  | text text =>
    rw [sameWithin]
    exact iff_of_true (beq_self_eq_true text) rfl
  | closure closure =>
    rw [sameWithin]
    exact iff_of_true (beq_self_eq_true closure) rfl
  | builtin builtin =>
    rw [sameWithin]
    exact iff_of_true (beq_self_eq_true builtin) rfl
  | list list =>
    -- One list is not looked into.
    cases depth with
    | zero =>
      rw [sameWithin]
      exact iff_of_true (beq_self_eq_true list) rfl
    | succ depth =>
      rw [sameWithin, beq_self_eq_true, Bool.true_or]
      exact iff_of_true rfl rfl

/-- Two lists of the same elements are equal unless one of those is a number that is none. -/
theorem same_of_elements (apart : list ≠ other)
    (equal : store.elements list = store.elements other) :
    store.same (.list list) (.list other) = true ↔
      ∀ element ∈ store.elements list, element.isNaN = false := by
  have different : (list == other) = false := beq_eq_false_iff_ne.mpr apart
  have pairs (row : List Value) : row.zip row = row.map fun element => (element, element) := by
    rw [List.zip, List.zipWith_self]
  rw [same, sameWithin, different, equal, beq_self_eq_true, Bool.false_or, Bool.true_and, pairs,
    List.all_map, List.all_eq_true]
  simp only [Function.comp_apply, sameWithin_self, Array.mem_toList_iff]

/-- Lists of the same elements have the same text. -/
theorem text?_of_elements (equal : store.elements list = store.elements other) :
    store.text? (.list list) = store.text? (.list other) := by
  simp only [text?, textWithin?, equal]

/--
A list and its copy in a store that has both: two lists of the same elements, of which each stays as
it is when the other is changed. A list inside them is inside both, and changed for both.
-/
structure Copied (store : Store) (list fresh : ListId) : Prop where
  apart : fresh ≠ list
  elements : store.elements fresh = store.elements list
  keepsCopy {host : Host} {after : State} (mutated : Eval.Mutated list ⟨store, host⟩ after) :
    after.store.elements fresh = store.elements fresh
  keepsList {host : Host} {after : State} (mutated : Eval.Mutated fresh ⟨store, host⟩ after) :
    after.store.elements list = store.elements list
  sharesNested {nested : ListId} {host : Host} {after : State} (inner : list ≠ nested)
    (inner' : fresh ≠ nested) (mutated : Eval.Mutated nested ⟨store, host⟩ after) :
    after.store.elements fresh = after.store.elements list

/-- Two lists of the same elements are a list and its copy. -/
theorem copied_of_elements {fresh : ListId} (apart : fresh ≠ list)
    (equal : store.elements fresh = store.elements list) : store.Copied list fresh where
  apart := apart
  elements := equal
  keepsCopy mutated := mutated.elements apart
  keepsList mutated := mutated.elements apart.symm
  sharesNested inner inner' mutated := by
    rw [mutated.elements inner, mutated.elements inner', equal]

/-- A value that is no list is its own copy. -/
theorem copy_plain (plain : ∀ list, value ≠ .list list) : store.copy value = (value, store) := by
  cases value with
  | list list => exact absurd rfl (plain list)
  | number | text | closure | builtin => rfl

/-- A copy of a list is a new list; the first one is as it was. -/
theorem copy_list {copy : Value} {after : Store} (there : list.index < store.lists.size)
    (copied : store.copy (.list list) = (copy, after)) :
    ∃ fresh, copy = .list fresh ∧ store.lists.size ≤ fresh.index ∧
      after.elements list = store.elements list ∧ after.Copied list fresh := by
  obtain ⟨rfl, rfl⟩ : .list ⟨store.lists.size⟩ = copy ∧
      (store.addList (store.elements list)).2 = after := Prod.mk.inj copied
  refine ⟨⟨store.lists.size⟩, rfl, Nat.le_refl _, elements_addList_of_lt there, ?_⟩
  apply copied_of_elements
  · rintro rfl
    exact Nat.lt_irrefl _ there
  · rw [elements_addList, elements_addList_of_lt there]

/--
Whether a value equals its copy: it does unless it is a float that is no number, or a list with such
a float as an element of its own.
-/
def EqualsCopy (store : Store) (value : Value) : Prop :=
  value.isNaN = false ∧
    ∀ list, value = .list list → ∀ element ∈ store.elements list, element.isNaN = false

/-- A value that is no list equals its copy if it equals itself. -/
theorem equalsCopy_plain (plain : ∀ list, value ≠ .list list) :
    store.EqualsCopy value ↔ value.isNaN = false :=
  and_iff_left fun list same => absurd same (plain list)

/-- A list equals its copy unless one of its own elements does not equal itself. -/
theorem equalsCopy_list :
    store.EqualsCopy (.list list) ↔ ∀ element ∈ store.elements list, element.isNaN = false := by
  constructor
  · intro equals
    exact equals.2 list rfl
  · intro elements
    refine ⟨rfl, ?_⟩
    rintro _ ⟨⟩
    exact elements

/--
A copy equals its value, in both orders, unless that is or directly holds a float that is no number.
The copy of a list is a new list, which has the same elements and is independent of the first one.
A value and its copy are as true as each other and have the same text.
-/
theorem copy_laws {copy : Value} {after : Store} (there : value.Within store.lists.size)
    (copied : store.copy value = (copy, after)) :
    (after.same copy value = true ↔ store.EqualsCopy value) ∧
      (after.same value copy = true ↔ store.EqualsCopy value) ∧
      (∀ list, value = .list list → ∃ fresh, copy = .list fresh ∧
        store.lists.size ≤ fresh.index ∧ after.elements list = store.elements list ∧
        after.Copied list fresh) ∧
      after.truth copy = after.truth value ∧
      after.text? copy = after.text? value ∧ after.quoted? copy = after.quoted? value := by
  -- Only a list is made anew; every other value is its own copy.
  by_cases listed : ∃ list, value = .list list
  · obtain ⟨list, rfl⟩ := listed
    obtain ⟨fresh, rfl, new, kept, both⟩ := copy_list (there list rfl) copied
    have text := text?_of_elements both.elements
    rw [equalsCopy_list, ← kept]
    refine ⟨?_, same_of_elements both.apart.symm both.elements.symm, ?_, ?_, text, ?_⟩
    · rw [same_of_elements both.apart both.elements, both.elements]
    · rintro _ ⟨⟩
      exact ⟨fresh, rfl, new, kept, both⟩
    · simp only [truth, both.elements]
    · simp only [quoted?, text]
      rfl
  · have plain : ∀ list, value ≠ .list list := fun list same => listed ⟨list, same⟩
    cases (copy_plain plain).symm.trans copied
    have equals : store.same value value = true ↔ store.EqualsCopy value :=
      (sameWithin_self ..).trans (equalsCopy_plain plain).symm
    exact ⟨equals, equals, fun list same => absurd same (plain list), rfl, rfl, rfl⟩

/-- A store with a list of a float that is no number, and a list of that list. -/
def holdingNaN : Store :=
  { empty with lists := #[#[.number (.float Numeric.notANumber)], #[.list ⟨0⟩]] }

/-- A list with such a float inside an inner list equals its copy, and the inner list does not. -/
theorem copy_laws_nested :
    (Value.list ⟨1⟩).Within holdingNaN.lists.size ∧ (Value.list ⟨0⟩).Within holdingNaN.lists.size ∧
      (∃ after, holdingNaN.copy (.list ⟨1⟩) = (.list ⟨2⟩, after) ∧
        after.same (.list ⟨2⟩) (.list ⟨1⟩) = true ∧ after.Copied ⟨1⟩ ⟨2⟩) ∧
      ∃ after, holdingNaN.copy (.list ⟨0⟩) = (.list ⟨2⟩, after) ∧
        after.same (.list ⟨2⟩) (.list ⟨0⟩) = false ∧ after.Copied ⟨0⟩ ⟨2⟩ := by
  have outer : (Value.list ⟨1⟩).Within holdingNaN.lists.size := by
    rintro _ ⟨⟩
    decide
  have inner : (Value.list ⟨0⟩).Within holdingNaN.lists.size := by
    rintro _ ⟨⟩
    decide
  obtain ⟨equal, -, lists, -⟩ := copy_laws outer rfl
  obtain ⟨equal', -, lists', -⟩ := copy_laws inner rfl
  obtain ⟨_, ⟨⟩, -, -, copied⟩ := lists _ rfl
  obtain ⟨_, ⟨⟩, -, -, copied'⟩ := lists' _ rfl
  refine ⟨outer, inner, ⟨_, rfl, equal.mpr ?_, copied⟩, _, rfl, ?_, copied'⟩
  · exact equalsCopy_list.mpr (by decide)
  · refine Bool.eq_false_iff.mpr (mt equal'.mp ?_)
    rw [equalsCopy_list]
    decide +kernel

end Store

end Scriptlet
