import Scriptlet.Store.Text
import Mathlib.Data.List.Forall2
import Mathlib.Data.Finset.Card
import Mathlib.Data.Finset.Filter
import Mathlib.Data.Finset.Range

/-! How deep one has to look into a value to see all of its text. -/

namespace Scriptlet

namespace Store

/-- A row of texts is complete when each of them is there. -/
theorem isSome_mapM {α β : Type} (read : α → Option β) (row : List α) :
    (row.mapM read).isSome ↔ ∀ item ∈ row, (read item).isSome := by
  -- The first text that is missing leaves the row without any.
  induction row with
  | nil => simp
  | cons item rest ih =>
    rw [List.mapM_cons, List.forall_mem_cons, ← ih]
    cases read item with
    | none => simp
    | some found =>
      cases rest.mapM read with
      | none => simp
      | some others => simp

/-- Two rows read the same when their items do, one by one. -/
theorem mapM_eq_of_forall₂ {α α' β : Type} {read : α → Option β} {read' : α' → Option β}
    {row : List α} {row' : List α'}
    (agree : List.Forall₂ (fun item item' => read item = read' item') row row') :
    row.mapM read = row'.mapM read' := by
  -- The induction goes along both rows.
  induction agree with
  | nil => rfl
  | cons same others ih => rw [List.mapM_cons, List.mapM_cons, same, ih]

variable {store : Store}

/-- A list has a text to some depth when all its elements have one to the depth before. -/
theorem isSome_textWithin?_list (depth : Nat) (list : ListId) :
    (store.textWithin? (depth + 1) (.list list)).isSome ↔
      ∀ value ∈ (store.elements list).toList, (store.textWithin? depth value).isSome := by
  -- The brackets and the commas are always there.
  have complete := isSome_mapM (fun value => (store.textWithin? depth value).map value.quote)
    (store.elements list).toList
  simp only [Option.isSome_map] at complete
  rw [← complete]
  simp only [textWithin?, Option.bind_eq_bind, Option.isSome_bind, Option.pure_def,
    Option.isSome_some, Option.any_true]

/-- Only lists have texts that depend on the depth. -/
theorem textWithin?_of_no_list {value : Value} (plain : ∀ list, value ≠ .list list)
    (depth depth' : Nat) : store.textWithin? depth value = store.textWithin? depth' value := by
  -- One case for each kind of value and for each of the two depths.
  cases value with
  | list list => exact absurd rfl (plain list)
  | number number => cases depth <;> cases depth' <;> rfl
  | text text => cases depth <;> cases depth' <;> rfl
  | closure closure => cases depth <;> cases depth' <;> rfl
  | builtin builtin => cases depth <;> cases depth' <;> rfl

/-- A text that is there at some depth is the same one level deeper. -/
theorem textWithin?_succ {depth : Nat} {value : Value}
    (there : (store.textWithin? depth value).isSome) :
    store.textWithin? (depth + 1) value = store.textWithin? depth value := by
  -- The induction is on the depth, and goes on to the elements of a list.
  induction depth generalizing value with
  | zero =>
    apply textWithin?_of_no_list
    rintro list rfl
    simp [textWithin?] at there
  | succ depth ih =>
    cases value with
    | list list =>
      rw [isSome_textWithin?_list] at there
      have agree : List.Forall₂ (fun value value' : Value =>
          (store.textWithin? (depth + 1) value).map value.quote =
            (store.textWithin? depth value').map value'.quote)
          (store.elements list).toList (store.elements list).toList :=
        List.forall₂_same.mpr fun value member => by rw [ih (there value member)]
      rw [textWithin?, textWithin?, mapM_eq_of_forall₂ agree]
    | number number => rfl
    | text text => rfl
    | closure closure => rfl
    | builtin builtin => rfl

/-- A depth at which every text is there that comes up one level deeper. -/
def Settled (store : Store) (depth : Nat) : Prop :=
  ∀ value, (store.textWithin? (depth + 1) value).isSome → (store.textWithin? depth value).isSome

/-- Once nothing new comes up, nothing new does one level deeper. -/
theorem Settled.succ {depth : Nat} (settled : store.Settled depth) :
    store.Settled (depth + 1) := by
  -- A list has its text when its elements have theirs.
  intro value there
  by_cases plain : ∀ list, value ≠ .list list
  · rw [textWithin?_of_no_list plain (depth + 1) (depth + 1 + 1)]
    exact there
  · obtain ⟨list, rfl⟩ := not_forall_not.mp plain
    rw [isSome_textWithin?_list] at there ⊢
    intro value member
    exact settled value (there value member)

/-- Once nothing new comes up, nothing new ever does. -/
theorem Settled.mono {depth deeper : Nat} (settled : store.Settled depth)
    (below : depth ≤ deeper) : store.Settled deeper := by
  -- The induction goes down level by level.
  induction deeper, below using Nat.le_induction with
  | base => exact settled
  | succ deeper below ih => exact ih.succ

/-- The lists of the store that have a text to some depth. -/
def shownLists (store : Store) (depth : Nat) : Finset Nat :=
  (Finset.range store.lists.size).filter fun place =>
    (store.textWithin? depth (.list ⟨place⟩)).isSome

/-- Where something new comes up one level deeper, it is one more list of the store. -/
theorem card_shownLists_lt {depth : Nat} (unsettled : ¬ store.Settled (depth + 1)) :
    (store.shownLists (depth + 1)).card < (store.shownLists (depth + 1 + 1)).card := by
  -- What comes up is a list, and one that the store has: any other one is empty.
  obtain ⟨value, appears⟩ := not_forall.mp unsettled
  obtain ⟨there, missing⟩ := Classical.not_imp.mp appears
  apply Finset.card_lt_card
  rw [Finset.ssubset_iff_of_subset]
  · by_cases plain : ∀ list, value ≠ .list list
    · rw [textWithin?_of_no_list plain (depth + 1) (depth + 1 + 1)] at missing
      exact absurd there missing
    · obtain ⟨list, rfl⟩ := not_forall_not.mp plain
      have inside : list.index < store.lists.size := by
        by_contra outside
        apply missing
        rw [isSome_textWithin?_list]
        have empty : store.elements list = #[] := by
          simp only [elements, Array.getElem?_eq_none (Nat.not_lt.mp outside), Option.getD_none]
        simp [empty]
      refine ⟨list.index, ?_, ?_⟩
      · simp only [shownLists, Finset.mem_filter, Finset.mem_range]
        exact ⟨inside, there⟩
      · simp only [shownLists, Finset.mem_filter, Finset.mem_range]
        exact fun found => missing found.2
  · -- What has a text keeps it.
    intro place member
    simp only [shownLists, Finset.mem_filter] at member ⊢
    refine ⟨member.1, ?_⟩
    rw [textWithin?_succ member.2]
    exact member.2

/-- Nothing new comes up below as many levels as there are lists. -/
theorem settled_size : store.Settled (store.lists.size + 1) := by
  -- Otherwise each level would have brought up one more list, and there are not so many.
  by_contra unsettled
  have restless (depth : Nat) (bound : depth ≤ store.lists.size) :
      (store.shownLists (depth + 1)).card < (store.shownLists (depth + 1 + 1)).card := by
    apply card_shownLists_lt
    intro settled
    exact unsettled (settled.mono (Nat.succ_le_succ bound))
  have many (depth : Nat) (bound : depth ≤ store.lists.size) :
      depth < (store.shownLists (depth + 1 + 1)).card := by
    induction depth with
    | zero => exact Nat.lt_of_le_of_lt (Nat.zero_le _) (restless 0 bound)
    | succ depth ih =>
      have before := ih (Nat.le_of_succ_le bound)
      have next := restless (depth + 1) bound
      omega
  have few : (store.shownLists (store.lists.size + 1 + 1)).card ≤ store.lists.size := by
    have bound := Finset.card_filter_le (Finset.range store.lists.size) fun place =>
      (store.textWithin? (store.lists.size + 1 + 1) (.list ⟨place⟩)).isSome
    rwa [Finset.card_range] at bound
  have enough := many store.lists.size (Nat.le_refl _)
  omega

/-- The text of a value is what one sees at any depth below as many levels as there are lists. -/
theorem textWithin?_eq_text? {depth : Nat} (deep : store.lists.size + 1 ≤ depth) (value : Value) :
    store.textWithin? depth value = store.text? value := by
  -- At each of these depths, what is there stays and what is missing does not come up.
  induction depth, deep using Nat.le_induction with
  | base => rfl
  | succ depth deep ih =>
    rw [← ih]
    by_cases there : (store.textWithin? depth value).isSome
    · exact textWithin?_succ there
    · have missing : ¬ (store.textWithin? (depth + 1) value).isSome :=
        fun later => there (settled_size.mono deep value later)
      rw [Option.not_isSome_iff_eq_none] at there missing
      rw [there, missing]

end Store

end Scriptlet
