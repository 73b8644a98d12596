import Scriptlet.Proofs.Session.Arithmetic
import Scriptlet.Proofs.Syntax.Literal

/-!
Displayed data is program text. The text that a display shows of a datum is a program, and its value
is the datum.
-/

namespace Scriptlet

/-- A store keeps its own lists. -/
theorem Store.Keeps.refl (store : Store) : store.Keeps store := fun _ _ => id

/-- What is kept and then kept again is kept. -/
theorem Store.Keeps.trans {first second third : Store} (one : first.Keeps second)
    (other : second.Keeps third) : first.Keeps third :=
  fun index row found => other index row (one index row found)

/-- A new list leaves all others as they are. -/
theorem Store.keeps_addList (store : Store) (elements : Array Value) :
    store.Keeps (store.addList elements).2 := by
  intro index row found
  obtain ⟨inside, -⟩ := Array.getElem?_eq_some_iff.mp found
  rw [Store.addList, Array.getElem?_push_lt inside, ← Array.getElem?_eq_getElem inside, found]

/-- A new list is there. -/
theorem Store.getElem?_addList (store : Store) (elements : Array Value) :
    (store.addList elements).2.lists[store.lists.size]? = some elements := by
  rw [Store.addList, Array.getElem?_push_size]

namespace Datum

/-- Data are expressions. -/
theorem isExpression (datum : Datum) : datum.node.IsExpression := by
  -- The induction is on the datum.
  induction datum using Datum.induction with
  | int value literal =>
    rw [node]
    split
    · exact .int
    · exact .unary .int
  | text => exact .text
  | list items ih =>
    refine .list fun item member => ?_
    rw [nodes_eq] at member
    obtain ⟨datum, inside, rfl⟩ := List.mem_map.mp member
    exact ih datum inside

/-- An expression whose value, given room to nest, is a datum, while all lists are kept. -/
def ValueOf (datum : Datum) (node : Node) : Prop :=
  ∃ depth, ∀ reach, depth ≤ reach → ∀ (frame : Frame) (state : State), ∃ value next,
    evaluate reach node frame state = .value value next ∧ state.store.Keeps next.store ∧
      next.store.Holds value datum

/-- An integer that is negated is evaluated to its opposite. -/
theorem evaluate_negated {value : Int64} (literal : value ≠ Int64.minValue)
    (negative : value.toInt < 0) {outer inner : Span} {reach : Nat} (deep : 2 ≤ reach)
    (frame : Frame) (state : State) :
    evaluate reach (.unary outer .negate (.int inner (-value))) frame state =
      .value (.number (.int value)) state := by
  have opposite := Numeric.toInt_neg_of_ne literal
  have low := value.le_toInt
  have high := (-value).toInt_lt
  have arithmetic : (Node.unary outer .negate (.int inner (-value))).IsArithmetic :=
    .unary (.int (by omega))
  have exact : (Node.unary outer .negate (.int inner (-value))).exactValue? = some value.toInt := by
    show some (-(-value).toInt) = some value.toInt
    rw [opposite, Int.neg_neg]
  -- Neither the operand nor its opposite leaves the range of words.
  have fits : ∀ part ∈ (Node.unary outer .negate (.int inner (-value))).operations,
      part.Fits := by
    simp only [Node.operations, List.singleton_append, List.forall_mem_cons]
    refine ⟨⟨_, rfl, ?_⟩, ⟨_, exact, ?_⟩, by simp⟩
    · simp only [Numeric.leastWord, Numeric.greatestWord]
      omega
    · simp only [Numeric.leastWord, Numeric.greatestWord]
      omega
  obtain ⟨word, same, valued⟩ := arithmetic.evaluate_exact fits deep frame state
  rw [exact, Option.some.injEq, Int64.toInt_inj] at same
  rw [valued, same]

/-- Integers are evaluated to themselves. -/
theorem valueOf_int {value : Int64} (literal : value ≠ Int64.minValue) {result : Node}
    (alike : result.Alike (Datum.int value literal).node) :
    ValueOf (.int value literal) result := by
  rw [node] at alike
  refine ⟨2, fun reach deep frame state => ⟨.number (.int value), state, ?_, .refl _, .int⟩⟩
  split at alike
  · cases alike with
    | int ranges =>
      obtain ⟨reach, rfl⟩ : ∃ less, reach = less + 1 := ⟨reach - 1, by omega⟩
      rfl
  · rename_i negative
    cases alike with
    | unary ranges inner =>
      cases inner with
      | int ranges => exact evaluate_negated literal (by omega) deep frame state

/-- Expressions in a row are evaluated to data in a row. -/
theorem values_of_valueOf {items : List Datum} {nodes : List Node}
    (each : List.Forall₂ ValueOf items nodes) :
    ∃ depth, ∀ reach, depth ≤ reach → ∀ (frame : Frame) (state : State), ∃ row next,
      Eval.values (evaluate reach) frame nodes state = .value row next ∧
        state.store.Keeps next.store ∧ List.Forall₂ next.store.Holds row items := by
  -- The induction goes along the row; what is held stays held while the others are evaluated.
  induction each with
  | nil => exact ⟨0, fun _ _ _ state => ⟨[], state, rfl, .refl _, .nil⟩⟩
  | cons one _ ih =>
    obtain ⟨first, valued⟩ := one
    obtain ⟨others, valuedEach⟩ := ih
    refine ⟨max first others, fun reach deep frame state => ?_⟩
    obtain ⟨value, middle, evaluated, kept, held⟩ :=
      valued reach (le_of_max_le_left deep) frame state
    obtain ⟨row, next, evaluatedEach, keptEach, heldEach⟩ :=
      valuedEach reach (le_of_max_le_right deep) frame middle
    refine ⟨value :: row, next, ?_, kept.trans keptEach, .cons (held.keeps keptEach) heldEach⟩
    simp only [Eval.values, Action.bind_apply, evaluated, evaluatedEach, Action.pure_apply]

/-- What is built like the expression of a datum is evaluated to the datum. -/
theorem valueOf_of_alike (datum : Datum) :
    ∀ result : Node, result.Alike datum.node → ValueOf datum result := by
  -- The induction is on the datum; lists are made of the values of their items.
  induction datum using Datum.induction with
  | int value literal => exact fun result => valueOf_int literal
  | text letters noQuote noEscape =>
    intro result alike
    cases alike with
    | text ranges =>
      refine ⟨1, fun reach deep frame state => ⟨.text letters, state, ?_, .refl _, .text⟩⟩
      obtain ⟨reach, rfl⟩ : ∃ less, reach = less + 1 := ⟨reach - 1, by omega⟩
      rfl
  | list items ih =>
    intro result alike
    rw [node, nodes_eq] at alike
    cases alike with
    | @list span _ results _ ranges alike =>
      rw [List.forall₂_map_right_iff] at alike
      have each := (forall₂_imp_mem alike fun item member node one =>
        ih item member node one).flip
      obtain ⟨depth, valued⟩ := values_of_valueOf each
      refine ⟨depth + 1, fun reach deep frame state => ?_⟩
      obtain ⟨reach, rfl⟩ : ∃ less, reach = less + 1 := ⟨reach - 1, by omega⟩
      obtain ⟨row, next, evaluated, kept, held⟩ :=
        valued reach (Nat.le_of_succ_le_succ deep) frame state
      have added := next.store.keeps_addList row.toArray
      refine ⟨.list ⟨next.store.lists.size⟩, ⟨(next.store.addList row.toArray).2, next.host⟩, ?_,
        kept.trans added, .list (next.store.getElem?_addList row.toArray) ?_⟩
      · show (Eval.values (evaluate reach) frame results >>= fun row =>
          Action.makeList row.toArray) state = _
        rw [Action.bind_apply, evaluated]
        rfl
      · exact held.imp fun _ _ one => one.keeps added

end Datum

namespace Machine

/-- A new scope comes with no lists. -/
theorem lists_addScope (machine : Machine) (parent : Option ScopeId) :
    (machine.addScope parent).2.state.store.lists = machine.state.store.lists := rfl

/-- The text of a datum is the program of its expression. -/
theorem program_written (datum : Datum) (name : String) : ∃ span result,
    (⟨name, datum.written⟩ : Source).program = .ok (.sequence span [result]) ∧
      result.Alike datum.node := by
  obtain ⟨tokens, cut, kinds⟩ := datum.hasKinds ⟨name, datum.written⟩ .start
  obtain ⟨span, result, parsed, alike⟩ := datum.isExpression.grouped.2 tokens kinds
  exact ⟨span, result, Source.program_eq_ok.mpr ⟨tokens, cut, parsed⟩, alike⟩

/-- The text of a datum, run as a program, yields a list of the datum, and keeps all lists. -/
theorem run_written (datum : Datum) (machine : Machine) (name : String) :
    ∃ depth, ∀ reach, depth ≤ reach → ∃ list element next,
      machine.run reach ⟨name, datum.written⟩ = some (.ok (.list list), next) ∧
        next.state.store.elements list = #[element] ∧ next.state.store.Holds element datum ∧
        machine.state.store.Keeps next.state.store := by
  obtain ⟨span, result, program, alike⟩ := program_written datum name
  obtain ⟨depth, valued⟩ := datum.valueOf_of_alike result alike
  refine ⟨depth + 1, fun reach deep => ?_⟩
  obtain ⟨reach, rfl⟩ : ∃ less, reach = less + 1 := ⟨reach - 1, by omega⟩
  -- A program is a list of its statements, of which there is one.
  rw [run_eq_runIn, runIn_of_statements program]
  have lists := machine.lists_addScope machine.globals
  generalize machine.addScope machine.globals = opened at lists
  obtain ⟨element, after, evaluated, kept, held⟩ :=
    valued reach (Nat.le_of_succ_le_succ deep) (.ofProgram opened.2.globals opened.1) opened.2.state
  have row : Eval.values (evaluate reach) (.ofProgram opened.2.globals opened.1) [result]
      opened.2.state = .value [element] after := by
    simp only [Eval.values, Action.bind_apply, evaluated, Action.pure_apply]
  have added := after.store.keeps_addList #[element]
  refine ⟨_, element, _, ended_makeList opened.2.globals List.toArray row,
    Store.elements_addList .., held.keeps added, fun index found present => ?_⟩
  rw [← lists] at present
  exact kept.trans added index found present

/--
Displayed data is program text. What a store holds as a datum is shown as a text which, run as a
program by any machine with enough room to nest, yields a list of one element: the same datum, and an
equal value if the machine had the store. So whatever else is shown as this text is the same datum,
and an equal value in the same store.
-/
theorem run_displayed {store : Store} {value : Value} {datum : Datum}
    (holds : store.Holds value datum) :
    ∃ text, store.quoted? value = some text ∧
      (∀ (machine : Machine) (name : String), ∃ depth, ∀ reach, depth ≤ reach →
        ∃ list element next, machine.run reach ⟨name, text⟩ = some (.ok (.list list), next) ∧
          next.state.store.elements list = #[element] ∧
          next.state.store.Holds element datum ∧
          (machine.state.store = store → next.state.store.same value element = true)) ∧
      ∀ (store' : Store) (other : Value) (datum' : Datum), store'.Holds other datum' →
        store'.quoted? other = some text →
          datum' = datum ∧ (store' = store → store.same value other = true) := by
  refine ⟨datum.written, holds.quoted?, fun machine name => ?_, ?_⟩
  · obtain ⟨depth, runs⟩ := run_written datum machine name
    refine ⟨depth, fun reach deep => ?_⟩
    obtain ⟨list, element, next, ended, elements, held, kept⟩ := runs reach deep
    refine ⟨list, element, next, ended, elements, held, ?_⟩
    rintro rfl
    exact (holds.keeps kept).same held
  · -- One run of the text yields both data.
    intro store' other datum' holds' shown
    have texts := holds'.quoted?.symm.trans shown
    obtain ⟨depth, runs⟩ := run_written datum (fresh (.prepared [] [] .gibibyte .none)) ""
    obtain ⟨depth', runs'⟩ := run_written datum' (fresh (.prepared [] [] .gibibyte .none)) ""
    obtain ⟨list, element, next, ended, elements, held, -⟩ :=
      runs (max depth depth') (Nat.le_max_left _ _)
    obtain ⟨list', element', next', ended', elements', held', -⟩ :=
      runs' (max depth depth') (Nat.le_max_right _ _)
    rw [Option.some.inj texts, ended] at ended'
    cases ended'
    rw [elements] at elements'
    cases elements'
    obtain rfl := held.unique held'
    refine ⟨rfl, ?_⟩
    rintro rfl
    exact holds.same holds'

/-- A store with a list of a number and a text, and one that holds this list twice. -/
def nestedLists : Store :=
  { Store.empty with
    lists := #[#[.number (.int (-5)), .text "a, ]# é\n\t"], #[.list ⟨0⟩, .text "", .list ⟨0⟩]] }

/-- The data of the first list, and of the second one. -/
def nestedData : Datum :=
  let inner : Datum :=
    .list [.int (-5) (by decide), .text "a, ]# é\n\t" (by decide) (by decide)]
  .list [inner, .text "" (by decide) (by decide), inner]

/-- The list of lists is shown in full, and its text yields it on a machine with its own store. -/
theorem run_displayed_nested :
    nestedLists.quoted? (.list ⟨1⟩) =
        some "[[-5, \"a, ]# é\n\t\"], \"\", [-5, \"a, ]# é\n\t\"]]" ∧
      ∃ text, nestedLists.quoted? (.list ⟨1⟩) = some text ∧
        ∃ reach list element next,
          (Machine.start nestedLists (.prepared [] [] .gibibyte .none)).run reach ⟨"data", text⟩ =
              some (.ok (.list list), next) ∧
            next.state.store.elements list = #[element] ∧
            next.state.store.Holds element nestedData := by
  have inner : nestedLists.Holds (.list ⟨0⟩)
      (.list [.int (-5) (by decide), .text "a, ]# é\n\t" (by decide) (by decide)]) :=
    .list rfl (.cons .int (.cons .text .nil))
  have holds : nestedLists.Holds (.list ⟨1⟩) nestedData :=
    .list rfl (.cons inner (.cons .text (.cons inner .nil)))
  obtain ⟨text, shown, runs, -⟩ := run_displayed holds
  obtain ⟨depth, ended⟩ := runs (.start nestedLists (.prepared [] [] .gibibyte .none)) "data"
  obtain ⟨list, element, next, run, elements, held, -⟩ := ended depth le_rfl
  exact ⟨by decide +kernel, text, shown, depth, list, element, next, run, elements, held⟩

end Machine

end Scriptlet
