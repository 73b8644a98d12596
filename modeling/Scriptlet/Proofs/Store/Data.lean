import Scriptlet.Proofs.Store.Depth
import Scriptlet.Store.Equality

/-!
Data: integers, texts and lists of data, apart from any store. What a store holds as a datum is shown
as the text of that datum, and is equal to whatever else is held as the same one.
-/

namespace Scriptlet

/--
Values that literals can stand for: integers but the least one, texts without quotes and escapes, and
lists of such values.
-/
inductive Datum where
  | int (value : Int64) (literal : value ≠ Int64.minValue)
  | text (text : String) (noQuote : '"' ∉ text.toList) (noEscape : '\\' ∉ text.toList)
  | list (items : List Datum)

namespace Datum

/-- What holds of integers and texts, and of lists if it holds of their items, holds of all data. -/
theorem induction {motive : Datum → Prop} (int : ∀ value literal, motive (.int value literal))
    (text : ∀ letters noQuote noEscape, motive (.text letters noQuote noEscape))
    (list : ∀ items, (∀ item ∈ items, motive item) → motive (.list items)) :
    ∀ datum, motive datum
  | .int value literal => int value literal
  | .text letters noQuote noEscape => text letters noQuote noEscape
  | .list items => list items fun item _ => Datum.induction int text list item

mutual

/-- A datum as programs write it and displays show it. -/
def written : Datum → String
  | .int value _ => toString value.toInt
  | .text letters _ _ => "\"" ++ letters ++ "\""
  | .list items => "[" ++ String.intercalate ", " (writtenEach items) ++ "]"

/-- The items of a list, each one as it is written. -/
def writtenEach : List Datum → List String
  | [] => []
  | item :: rest => item.written :: writtenEach rest

end

/-- The items of a list are written as each of them is. -/
theorem writtenEach_eq (items : List Datum) : writtenEach items = items.map written := by
  induction items with
  | nil => rfl
  | cons item rest ih => rw [writtenEach, ih, List.map_cons]

end Datum

/-- Rows that are related item by item are related so, too, if that follows for each item. -/
theorem forall₂_imp_mem {α β : Type} {related weaker : α → β → Prop} {row : List α}
    {items : List β} (each : List.Forall₂ related row items)
    (implied : ∀ item ∈ items, ∀ value, related value item → weaker value item) :
    List.Forall₂ weaker row items := by
  -- The induction goes along both rows.
  induction each with
  | nil => exact .nil
  | cons one _ ih =>
    rw [List.forall_mem_cons] at implied
    exact .cons (implied.1 _ one) (ih implied.2)

/-- Rows that are related to the same items are related to each other, if that follows for each. -/
theorem forall₂_join {α β γ : Type} {lefts : α → γ → Prop} {rights : β → γ → Prop}
    {both : α → β → Prop} {row : List α} {row' : List β} {items : List γ}
    (each : List.Forall₂ lefts row items) (each' : List.Forall₂ rights row' items)
    (implied : ∀ item ∈ items, ∀ value ∈ row, ∀ other, lefts value item → rights other item →
      both value other) : List.Forall₂ both row row' := by
  -- The induction goes along the items that both rows are related to.
  induction each generalizing row' with
  | nil =>
    cases each'
    exact .nil
  | cons one _ ih =>
    cases each' with
    | cons one' others' =>
      refine .cons (implied _ List.mem_cons_self _ List.mem_cons_self _ one one') (ih others' ?_)
      exact fun item inside value member =>
        implied item (List.mem_cons_of_mem _ inside) value (List.mem_cons_of_mem _ member)

namespace Store

/-- A value that a store has as a datum. -/
inductive Holds (store : Store) : Value → Datum → Prop where
  | int {value : Int64} {literal : value ≠ Int64.minValue} :
    Holds store (.number (.int value)) (.int value literal)
  | text {text : String} {noQuote : '"' ∉ text.toList} {noEscape : '\\' ∉ text.toList} :
    Holds store (.text text) (.text text noQuote noEscape)
  | list {list : ListId} {row : Array Value} {items : List Datum}
    (found : store.lists[list.index]? = some row)
    (each : List.Forall₂ (Holds store) row.toList items) : Holds store (.list list) (.list items)

/-- A store in which all lists of another are what they were there. -/
def Keeps (before after : Store) : Prop :=
  ∀ (index : Nat) (row : Array Value), before.lists[index]? = some row →
    after.lists[index]? = some row

variable {store store' : Store} {value other : Value} {datum : Datum}

/-- What is kept is still held. -/
theorem Holds.keeps (holds : store.Holds value datum) (kept : store.Keeps store') :
    store'.Holds value datum := by
  -- The induction is on the datum; only lists depend on the store.
  induction datum using Datum.induction generalizing value with
  | int =>
    cases holds
    exact .int
  | text =>
    cases holds
    exact .text
  | list items ih =>
    cases holds with
    | list found each =>
      exact .list (kept _ _ found) (forall₂_imp_mem each fun item member _ => ih item member)

/-- The elements of a list that is there. -/
theorem elements_of_getElem? {list : ListId} {row : Array Value}
    (found : store.lists[list.index]? = some row) : store.elements list = row := by
  rw [elements, found, Option.getD_some]

/-- A value whose text, from some depth on, is that of a datum. -/
def Displays (store : Store) (value : Value) (datum : Datum) : Prop :=
  ∃ depth, ∀ deeper, depth ≤ deeper →
    (store.textWithin? deeper value).map value.quote = some datum.written

/-- Values in a row are shown as data in a row. -/
theorem displays_row {row : List Value} {items : List Datum}
    (each : List.Forall₂ store.Displays row items) :
    ∃ depth, ∀ deeper, depth ≤ deeper →
      (row.mapM fun value => (store.textWithin? deeper value).map value.quote) =
        some (items.map Datum.written) := by
  induction each with
  | nil => exact ⟨0, fun _ _ => rfl⟩
  | cons one _ ih =>
    obtain ⟨first, shown⟩ := one
    obtain ⟨others, shown'⟩ := ih
    refine ⟨max first others, fun deeper bound => ?_⟩
    rw [List.mapM_cons, shown deeper (le_of_max_le_left bound),
      shown' deeper (le_of_max_le_right bound)]
    rfl

/-- What is held as a datum is shown as the datum. -/
theorem Holds.displays (holds : store.Holds value datum) : store.Displays value datum := by
  -- A list is shown one level deeper than its items.
  induction datum using Datum.induction generalizing value with
  | int =>
    cases holds
    exact ⟨0, fun deeper _ => by cases deeper <;> rfl⟩
  | text =>
    cases holds
    exact ⟨0, fun deeper _ => by cases deeper <;> rfl⟩
  | list items ih =>
    cases holds with
    | list found each =>
      obtain ⟨depth, shown⟩ := displays_row
        (forall₂_imp_mem each fun item member _ => ih item member)
      refine ⟨depth + 1, fun deeper bound => ?_⟩
      obtain ⟨deeper, rfl⟩ : ∃ less, deeper = less + 1 := ⟨deeper - 1, by omega⟩
      rw [textWithin?, elements_of_getElem? found, shown deeper (Nat.le_of_succ_le_succ bound),
        Datum.written, Datum.writtenEach_eq]
      rfl

/-- A display shows it so, with texts between quotes. -/
theorem Holds.quoted? (holds : store.Holds value datum) :
    store.quoted? value = some datum.written := by
  obtain ⟨depth, shown⟩ := holds.displays
  rw [Store.quoted?, ← textWithin?_eq_text? (le_max_right depth (store.lists.size + 1))]
  exact shown _ (le_max_left _ _)

/-- Values that are held as the same datum are equal as deep as they are shown. -/
theorem Holds.sameWithin {depth : Nat} (left : store.Holds value datum)
    (right : store.Holds other datum) (deep : (store.textWithin? depth value).isSome) :
    store.sameWithin depth value other = true := by
  -- The induction is on the datum; lists are equal when they are the same, or item by item.
  induction datum using Datum.induction generalizing value other depth with
  | int value =>
    cases left
    cases right
    have same : (Number.int value).same (.int value) = true := by
      simp [Number.same, Number.compare?]
    cases depth <;> exact same
  | text letters =>
    cases left
    cases right
    have same : (letters == letters) = true := beq_self_eq_true letters
    cases depth <;> exact same
  | list items ih =>
    cases left with
    | @list list row _ found each =>
      cases right with
      | @list list' row' _ found' each' =>
        cases depth with
        | zero => simp [textWithin?] at deep
        | succ depth =>
          -- Both lists have as many elements, and those at one place are the same datum.
          rw [isSome_textWithin?_list, elements_of_getElem? found] at deep
          have rows : List.Forall₂ (fun x y => store.sameWithin depth x y = true) row.toList
              row'.toList := forall₂_join each each' fun item inside value member other left right =>
            ih item inside left right (deep value member)
          obtain ⟨sizes, all⟩ := List.forall₂_iff_zip.mp rows
          rw [Array.length_toList, Array.length_toList] at sizes
          rw [Store.sameWithin, elements_of_getElem? found, elements_of_getElem? found', sizes,
            beq_self_eq_true, Bool.true_and, List.all_eq_true.mpr fun pair inside => all inside,
            Bool.or_true]

/-- No value is held as two data. -/
theorem Holds.unique {datum' : Datum} (one : store.Holds value datum)
    (other : store.Holds value datum') : datum' = datum := by
  -- What a list place holds is one row, and each value of that is one datum.
  induction datum using Datum.induction generalizing value datum' with
  | int =>
    cases one
    cases other
    rfl
  | text =>
    cases one
    cases other
    rfl
  | list items ih =>
    cases one with
    | list found each =>
      cases other with
      | list found' each' =>
        cases found.symm.trans found'
        have same : List.Forall₂ Eq items _ := forall₂_join each.flip each'.flip
          fun value _ item member other one other' => (ih item member one other').symm
        rw [List.forall₂_eq_eq_eq] at same
        rw [same]

/-- Values that are held as the same datum are equal. -/
theorem Holds.same (left : store.Holds value datum) (right : store.Holds other datum) :
    store.same value other = true := by
  -- Both are compared as deep as a display goes, and there the datum has been shown.
  refine left.sameWithin right ?_
  have shown := left.quoted?
  rw [Store.quoted?, Option.map_eq_some_iff] at shown
  obtain ⟨text, there, -⟩ := shown
  exact Option.isSome_of_eq_some there

end Store

end Scriptlet
