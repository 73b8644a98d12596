import Scriptlet.Proofs.Eval.Coupling
import Scriptlet.Proofs.Store.Depth

/-! Values of two stores that nobody who only looks at them can tell apart. -/

namespace Scriptlet

/-- Two functions that are the same, up to the ranges that they were read from. -/
abbrev Closure.Reread (spans : Span → Span → Prop) : Closure → Closure → Prop :=
  Closure.Similar spans (· = ·)

namespace Store

/-- Two functions of two stores that are the same up to ranges, or are both missing. -/
def Rereads (spans : Span → Span → Prop) (store store' : Store) (closure closure' : ClosureId) :
    Prop :=
  Option.Rel (Closure.Reread spans) (store.closure? closure) (store'.closure? closure')

/-- Two values of two stores that look the same to a depth; of lists the elements have to. -/
def MatchesWithin (spans : Span → Span → Prop) (store store' : Store) :
    Nat → Value → Value → Prop
  | 0 => Value.Similar (fun _ _ => True) (Rereads spans store store')
  | depth + 1 =>
    Value.Similar
      (fun list list' => List.Forall₂ (MatchesWithin spans store store' depth)
        (store.elements list).toList (store'.elements list').toList)
      (Rereads spans store store')

/-- Two values of two stores that look the same to every depth, and that are shown as the same. -/
structure Matches (spans : Span → Span → Prop) (store store' : Store) (value value' : Value) :
    Prop where
  same (depth : Nat) : store.MatchesWithin spans store' depth value value'
  text : store.text? value = store'.text? value'
  quoted : store.quoted? value = store'.quoted? value'

variable {spans : Span → Span → Prop} {store store' : Store} {value value' : Value}

/-- Of functions that are the same up to ranges the same text is shown. -/
theorem Rereads.text {closure closure' : ClosureId}
    (same : store.Rereads spans store' closure closure') :
    (store.closure? closure).map Closure.text = (store'.closure? closure').map Closure.text := by
  -- A function that is missing is missing on both sides.
  unfold Rereads at same
  generalize store.closure? closure = found, store'.closure? closure' = found' at same
  cases same with
  | none => rfl
  | some alike => exact congrArg some alike.text

/-- Of two values that are the same up to places both are shown between quotes or none is. -/
theorem quote_of_similar {lists : ListId → ListId → Prop}
    {closures : ClosureId → ClosureId → Prop} (alike : value.Similar lists closures value') :
    value.quote = value'.quote := by
  -- Only texts are quoted.
  cases alike <;> rfl

/--
Values that are related to some depth show the same text to that depth, when related functions are
called the same and the elements of related lists are related to the depth before.
-/
theorem textWithin?_of_related (related : Nat → Value → Value → Prop)
    {closures : ClosureId → ClosureId → Prop}
    (named : ∀ closure closure', closures closure closure' →
      (store.closure? closure).map Closure.text = (store'.closure? closure').map Closure.text)
    (first : ∀ value value', related 0 value value' →
      value.Similar (fun _ _ => True) closures value')
    (next : ∀ depth value value', related (depth + 1) value value' →
      value.Similar (fun list list' => List.Forall₂ (related depth) (store.elements list).toList
        (store'.elements list').toList) closures value')
    (depth : Nat) (same : related depth value value') :
    store.textWithin? depth value = store'.textWithin? depth value' := by
  -- The induction is on the depth, and goes on to the elements of lists.
  induction depth generalizing value value' with
  | zero =>
    cases first _ _ same with
    | number number => rfl
    | text text => rfl
    | list places => rfl
    | closure places => exact named _ _ places
    | builtin builtin => rfl
  | succ depth ih =>
    cases next _ _ _ same with
    | number number => rfl
    | text text => rfl
    | closure places => exact named _ _ places
    | builtin builtin => rfl
    | @list list list' elements =>
      have quotes {value value' : Value} (same : related depth value value') :
          value.quote = value'.quote := by
        cases depth with
        | zero => exact quote_of_similar (first _ _ same)
        | succ depth => exact quote_of_similar (next _ _ _ same)
      have agree : List.Forall₂ (fun value value' =>
          (store.textWithin? depth value).map value.quote =
            (store'.textWithin? depth value').map value'.quote)
          (store.elements list).toList (store'.elements list').toList := by
        apply elements.imp
        intro value value' same
        rw [ih same, quotes same]
      simp only [Store.textWithin?, mapM_eq_of_forall₂ agree]

/-- Values that look the same to a depth show the same text to that depth. -/
theorem MatchesWithin.textWithin? {depth : Nat}
    (same : store.MatchesWithin spans store' depth value value') :
    store.textWithin? depth value = store'.textWithin? depth value' :=
  textWithin?_of_related (store.MatchesWithin spans store') (fun _ _ same => same.text)
    (fun _ _ same => same) (fun _ _ _ same => same) depth same

/-- Values that show the same text to every depth are shown as the same. -/
theorem text?_of_textWithin?
    (same : ∀ depth, store.textWithin? depth value = store'.textWithin? depth value') :
    store.text? value = store'.text? value' := by
  -- Looking deep enough for both stores shows the whole text in each of them.
  have deep := Nat.le_max_left (store.lists.size + 1) (store'.lists.size + 1)
  have deep' := Nat.le_max_right (store.lists.size + 1) (store'.lists.size + 1)
  rw [← textWithin?_eq_text? deep, ← textWithin?_eq_text? deep']
  exact same _

/--
Values that are the same up to places in some relation show the same text, when related functions
are called the same and related lists have elements that are so too.
-/
theorem text?_of_simulation {lists : ListId → ListId → Prop}
    {closures : ClosureId → ClosureId → Prop}
    (elements : ∀ list list', lists list list' → List.Forall₂ (Value.Similar lists closures)
      (store.elements list).toList (store'.elements list').toList)
    (named : ∀ closure closure', closures closure closure' →
      (store.closure? closure).map Closure.text = (store'.closure? closure').map Closure.text)
    (alike : value.Similar lists closures value') : store.text? value = store'.text? value' :=
  text?_of_textWithin? fun depth =>
    textWithin?_of_related (fun _ => Value.Similar lists closures) named
      (fun _ _ same => same.imp (fun _ _ _ => trivial) fun _ _ same => same)
      (fun _ _ _ same => same.imp elements fun _ _ same => same) depth alike

/-- Values that look the same to every depth are shown as the same. -/
theorem Matches.of_forall
    (same : ∀ depth, store.MatchesWithin spans store' depth value value') :
    store.Matches spans store' value value' := by
  have text : store.text? value = store'.text? value' :=
    text?_of_textWithin? fun depth => (same depth).textWithin?
  refine ⟨same, text, ?_⟩
  unfold Store.quoted?
  rw [text, quote_of_similar (same 0)]

/--
Values look the same to every depth when they are the same up to places in some relation, as long as
lists at related places have elements that are so too.
-/
theorem Matches.of_simulation {lists : ListId → ListId → Prop}
    {closures : ClosureId → ClosureId → Prop}
    (elements : ∀ list list', lists list list' → List.Forall₂ (Value.Similar lists closures)
      (store.elements list).toList (store'.elements list').toList)
    (functions : ∀ closure closure', closures closure closure' →
      store.Rereads spans store' closure closure')
    (alike : value.Similar lists closures value') : store.Matches spans store' value value' := by
  -- The induction is on the depth; the relation of places goes on to elements.
  apply Matches.of_forall
  intro depth
  induction depth generalizing value value' with
  | zero => exact alike.imp (fun _ _ _ => trivial) functions
  | succ depth ih =>
    apply alike.imp _ functions
    intro list list' places
    exact (elements list list' places).imp fun _ _ same => ih same

end Store

end Scriptlet
