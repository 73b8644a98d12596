import Scriptlet.Proofs.Eval.Steps

/-! What the operators do with corresponding values. -/

namespace Scriptlet

namespace Coupling

/-- Two results of an operation that correspond. -/
inductive Results (coupling : Coupling) (world : coupling.World) :
    Operation.Result → Operation.Result → Prop where
  | value {value value' : Value} (alike : coupling.Values world value value') :
    Results coupling world (.value value) (.value value')
  | list {elements elements' : Array Value}
    (alike : coupling.Rows world elements.toList elements'.toList) :
    Results coupling world (.list elements) (.list elements')

/-- Two attempts that both succeed with related results, or both fail in the same way. -/
inductive Attempts {α α' : Type} (results : α → α' → Prop) :
    Except Operation.Fault α → Except Operation.Fault α' → Prop where
  | ok {result : α} {result' : α'} (alike : results result result') :
    Attempts results (.ok result) (.ok result')
  | error (fault : Operation.Fault) : Attempts results (.error fault) (.error fault)

variable {coupling : Coupling} {world : coupling.World}

/-- Two attempts whose results are told in other terms. -/
theorem Attempts.map {α α' β β' : Type} {results : α → α' → Prop} {outcomes : β → β' → Prop}
    {told : α → β} {told' : α' → β'} {attempt : Except Operation.Fault α}
    {attempt' : Except Operation.Fault α'} (alike : Attempts results attempt attempt')
    (tells : ∀ result result', results result result' → outcomes (told result) (told' result')) :
    Attempts outcomes (attempt.map told) (attempt'.map told') := by
  -- Failures are passed on as they are.
  cases alike with
  | ok alike => exact .ok (tells _ _ alike)
  | error fault => exact .error fault

/-- An attempt is like itself. -/
theorem Attempts.same {α : Type} (attempt : Except Operation.Fault α) :
    Attempts (· = ·) attempt attempt := by
  -- The results are equal.
  cases attempt with
  | ok result => exact .ok rfl
  | error fault => exact .error fault

/-- Rows of as many values have the same size. -/
theorem Rows.size_eq {elements elements' : Array Value}
    (alike : coupling.Rows world elements.toList elements'.toList) :
    elements.size = elements'.size := by
  -- Corresponding lists are equally long.
  have lengths := alike.length_eq
  rw [Array.length_toList, Array.length_toList] at lengths
  exact lengths

/-- Rows stay in correspondence with one more value each. -/
theorem Rows.push {elements elements' : Array Value} {value value' : Value}
    (alike : coupling.Rows world elements.toList elements'.toList)
    (same : coupling.Values world value value') :
    coupling.Rows world (elements.push value).toList (elements'.push value').toList := by
  -- The new values are at the ends.
  rw [Array.toList_push, Array.toList_push]
  exact List.rel_append alike (.cons same .nil)

/-- Rows stay in correspondence when they are joined. -/
theorem Rows.append {elements elements' others others' : Array Value}
    (alike : coupling.Rows world elements.toList elements'.toList)
    (more : coupling.Rows world others.toList others'.toList) :
    coupling.Rows world (elements ++ others).toList (elements' ++ others').toList := by
  -- The lists are joined as the arrays are.
  rw [Array.toList_append, Array.toList_append]
  exact List.rel_append alike more

/-- Rows stay in correspondence when both lose the value at a place. -/
theorem Rows.eraseIdx {elements elements' : Array Value} (place : Nat)
    (alike : coupling.Rows world elements.toList elements'.toList) :
    coupling.Rows world (elements.eraseIdxIfInBounds place).toList
      (elements'.eraseIdxIfInBounds place).toList := by
  -- A place outside of one row is outside of the other one too.
  have sizes := alike.size_eq
  by_cases inside : place < elements.size
  · have inside' : place < elements'.size := by omega
    simp only [Array.eraseIdxIfInBounds, inside, inside', ↓reduceDIte, Array.toList_eraseIdx]
    generalize elements.toList = row, elements'.toList = row' at alike
    clear sizes inside inside'
    induction alike generalizing place with
    | nil => exact .nil
    | cons same others ih =>
      cases place with
      | zero => exact others
      | succ place => exact .cons same (ih place)
  · have outside' : ¬ place < elements'.size := by omega
    simp only [Array.eraseIdxIfInBounds, inside, outside', ↓reduceDIte]
    exact alike

/-- The values at a place of corresponding rows, or the absence of a value in both. -/
theorem Rows.valueAt {row row' : List Value} (place : Nat) (alike : coupling.Rows world row row') :
    coupling.Values world (row[place]?.getD .null) (row'[place]?.getD .null) := by
  -- The induction goes along both rows, down to the place.
  induction alike generalizing place with
  | nil => exact Values.null
  | cons same others ih =>
    cases place with
    | zero => exact same
    | succ place => exact ih place

/-- The same for rows that are kept in arrays. -/
theorem Rows.getD {elements elements' : Array Value} (place : Nat)
    (alike : coupling.Rows world elements.toList elements'.toList) :
    coupling.Values world (elements[place]?.getD .null) (elements'[place]?.getD .null) := by
  -- An array has the values of its list.
  rw [← Array.getElem?_toList, ← Array.getElem?_toList]
  exact alike.valueAt place

/-- An index means the same place in rows of the same size. -/
theorem Rows.place {elements elements' : Array Value} (index : Int64) (access : Access)
    (alike : coupling.Rows world elements.toList elements'.toList) :
    Operation.place elements index access = Operation.place elements' index access := by
  -- Only the size matters.
  unfold Operation.place
  rw [alike.size_eq]

/-- Corresponding values are true together. -/
theorem truth_eq {store store' : Store} {value value' : Value} (lawful : coupling.Lawful)
    (stores : coupling.stores world store store') (alike : coupling.Values world value value') :
    store.truth value = store'.truth value' := by
  -- Of a list only its size counts.
  cases alike with
  | list places =>
    have sizes := Rows.size_eq (lawful.elements stores places)
    simp only [Store.truth, Array.isEmpty, sizes]
  | number => rfl
  | text => rfl
  | closure => rfl
  | builtin => rfl

/-- Operations on the same numbers yield the same number. -/
theorem numbers_attempts (operator : BinaryOperator) (left right : Number) :
    Attempts (coupling.Values world) (Operation.numbers operator left right)
      (Operation.numbers operator left right) := by
  -- Every family of operations yields numbers.
  have told {α : Type} (attempt : Except Operation.Fault α) (number : α → Number) :
      Attempts (coupling.Values world) (attempt.map fun result => .number (number result))
        (attempt.map fun result => .number (number result)) :=
    (Attempts.same attempt).map fun result _ same => same ▸ .number (number result)
  unfold Operation.numbers
  cases operator <;> exact told _ _

/-- Operations of one text with corresponding values yield the same. -/
theorem text_attempts (memory : Memory) (operator : BinaryOperator) (left : String)
    {right right' : Value} (alike : coupling.Values world right right') :
    Attempts (coupling.Values world) (Operation.text memory operator left right)
      (Operation.text memory operator left right') := by
  -- Texts take texts and integers only, and these are the same.
  cases alike with
  | text other =>
    cases operator <;> first | exact .ok (.text _) | exact .ok (Values.ofBool _) | exact .error _
  | number number =>
    cases number with
    | float value => cases operator <;> exact .error _
    | int count =>
      cases operator <;> try exact .error _
      simp only [Operation.text]
      split
      · exact .ok (.text _)
      · exact .error _
  | list places => cases operator <;> exact .error _
  | closure places => cases operator <;> exact .error _
  | builtin builtin => cases operator <;> exact .error _

/-- Operations of corresponding lists with corresponding values yield what corresponds. -/
theorem list_attempts (operator : BinaryOperator) {left left' : ListId} {right right' : Value}
    {store store' : Store} (lawful : coupling.Lawful)
    (stores : coupling.stores world store store') (lefts : coupling.lists world left left')
    (rights : coupling.Values world right right') :
    Attempts (coupling.Results world) (Operation.list operator left right store)
      (Operation.list operator left' right' store') := by
  -- Every operator but four is illegal on lists.
  have row := lawful.elements stores lefts
  cases operator
  case add => exact .ok (.list (row.push rights))
  case mul =>
    cases rights with
    | list places => exact .ok (.list (row.append (lawful.elements stores places)))
    | number number => exact .error _
    | text text => exact .error _
    | closure places => exact .error _
    | builtin builtin => exact .error _
  case sub =>
    cases rights with
    | number number =>
      cases number with
      | float value => exact .error _
      | int index =>
        simp only [Operation.list, row.place]
        cases Operation.place (store'.elements left') index .removal with
        | error fault => exact .error fault
        | ok offset => exact .ok (.list (row.eraseIdx offset))
    | list places => exact .error _
    | text text => exact .error _
    | closure places => exact .error _
    | builtin builtin => exact .error _
  case div =>
    cases rights with
    | number number =>
      cases number with
      | float value => exact .error _
      | int index =>
        simp only [Operation.list, row.place]
        cases Operation.place (store'.elements left') index .retrieval with
        | error fault => exact .error fault
        | ok offset => exact .ok (.value (row.getD offset))
    | list places => exact .error _
    | text text => exact .error _
    | closure places => exact .error _
    | builtin builtin => exact .error _
  all_goals exact .error _

/-- Operators between corresponding values yield what corresponds. -/
theorem binary_attempts (memory : Memory) (operator : BinaryOperator)
    {left left' right right' : Value} {store store' : Store} (lawful : coupling.Lawful)
    (stores : coupling.stores world store store') (lefts : coupling.Values world left left')
    (rights : coupling.Values world right right') :
    Attempts (coupling.Results world) (Operation.binary memory operator left right store)
      (Operation.binary memory operator left' right' store') := by
  -- The left value decides which family of operations is meant.
  cases lefts with
  | number left =>
    cases rights with
    | number right => exact (numbers_attempts operator left right).map fun _ _ same => .value same
    | text text => exact .error _
    | list places => exact .error _
    | closure places => exact .error _
    | builtin builtin => exact .error _
  | text left => exact (text_attempts memory operator left rights).map fun _ _ same => .value same
  | list places => exact list_attempts operator lawful stores places rights
  | closure places => exact .error _
  | builtin builtin => exact .error _

/-- Operators before corresponding values yield what corresponds. -/
theorem unary_attempts (operator : UnaryOperator) {operand operand' : Value}
    {store store' : Store} (lawful : coupling.Lawful)
    (stores : coupling.stores world store store')
    (alike : coupling.Values world operand operand') :
    Attempts (coupling.Values world) (Operation.unary operator operand store)
      (Operation.unary operator operand' store') := by
  -- Negation is for numbers only, the other operators take every value.
  cases operator with
  | plus => exact .ok alike
  | not =>
    simp only [Operation.unary, truth_eq lawful stores alike]
    exact .ok (Values.ofBool _)
  | negate =>
    cases alike with
    | number number => exact .ok (.number _)
    | text text => exact .error _
    | list places => exact .error _
    | closure places => exact .error _
    | builtin builtin => exact .error _

/-- What operations yield, as values. -/
theorem Steps.yield {ε ε' : Type} {exits : coupling.World → ε → ε' → Prop}
    {result result' : Operation.Result} (lawful : coupling.Lawful)
    (alike : coupling.Results world result result') :
    coupling.Steps world exits coupling.Values (Action.yield result) (Action.yield result') := by
  -- The elements of a list make a new list.
  cases alike with
  | value alike => exact pure lawful fun _ grown => alike.mono lawful grown
  | list alike => exact makeList lawful alike

end Coupling

end Scriptlet
