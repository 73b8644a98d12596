import Scriptlet.Eval
import Scriptlet.Proofs.Eval.Invariant
import Scriptlet.Proofs.Store.Access

/-!
The built-in functions that change lists in place, beside the operators that yield new lists: they
accept the same indices and come to the same elements, and no other list changes.
-/

namespace Scriptlet

namespace Numeric

variable {index : Int64} {length offset : Nat}

/-- An index means a place if it is not too far from either end. -/
theorem resolveIndex_eq_some_iff :
    resolveIndex index length = some offset ↔
      offset < length ∧
        (offset : Int) = if index.toInt < 0 then length + index.toInt else index.toInt := by
  simp only [resolveIndex]
  split <;> simp only [Option.ite_none_right_eq_some, Option.some.injEq] <;> omega

/-- An index that is too far from both ends means no place. -/
theorem resolveIndex_eq_none_iff :
    resolveIndex index length = none ↔
      ¬ (-(length : Int) ≤ index.toInt ∧ index.toInt < length) := by
  simp only [resolveIndex]
  split <;> simp only [ite_eq_right_iff, reduceCtorEq, imp_false] <;> omega

end Numeric

/-- The list that the first of some arguments is, if it is one. -/
def Value.firstList? : List Value → Option ListId
  | .list target :: _ => some target
  | _ => none

/-- Lists that are there keep their elements, but for one that may be changed. -/
def Store.KeepsListsBut (changed : Option ListId) (before after : Store) : Prop :=
  ∀ list, list.index < before.lists.size → changed ≠ some list →
    after.elements list = before.elements list

/-- A step ends with a new list of some elements. -/
def Outcome.MakesList {ε : Type} (outcome : Outcome ε Value) (before : Store)
    (elements : Array Value) : Prop :=
  ∃ fresh made, outcome = .value (.list fresh) made ∧ before.lists.size ≤ fresh.index ∧
    made.store.elements fresh = elements

/-- A step ends with a result, and with some elements in a list. -/
def Outcome.LeavesList {ε : Type} (outcome : Outcome ε Value) (result : Value) (list : ListId)
    (elements : Array Value) : Prop :=
  ∃ after, outcome = .value result after ∧ after.store.elements list = elements

namespace Eval

/-- What an operator does with two values; a list that it yields is a new one. -/
def operate (operator : BinaryOperator) (left right : Value) : Action Operation.Fault Value := do
  let memory ← Action.memory
  match ← Action.look (Operation.binary memory operator left right) with
  | .ok result => Action.yield result
  | .error fault => Action.leave fault

/-- An operator between two constructs does what it does with their values. -/
theorem binary_eq_operate (evaluate : Evaluator) (frame : Frame) (span : Span)
    (operator : BinaryOperator) (left right : Node) :
    binary evaluate frame span operator left right = (do
      let one ← evaluate left frame
      let other ← evaluate right frame
      (operate operator one other).mapExit fun fault => .failed
        (frame.error (.operation fault) (if fault = .illegal then span else right.span))) := by
  unfold binary operate
  congr 1
  funext one
  congr 1
  funext other state
  simp only [Action.mapExit, Action.bind_apply, Action.memory_apply, Action.look_apply]
  cases Operation.binary state.host.memory operator one other state.store with
  | ok result => cases result <;> rfl
  | error fault => rfl

/-- What an operator does with the one value behind it. -/
def operateUnary (operator : UnaryOperator) (operand : Value) : Action Operation.Fault Value := do
  match ← Action.look (Operation.unary operator operand) with
  | .ok result => return result
  | .error fault => Action.leave fault

/-- An operator before a construct does what it does with its value. -/
theorem unary_eq_operateUnary (evaluate : Evaluator) (frame : Frame) (span : Span)
    (operator : UnaryOperator) (operand : Node) :
    unary evaluate frame span operator operand = (do
      let value ← evaluate operand frame
      (operateUnary operator value).mapExit fun fault => .failed
        (frame.error (.operation fault) span)) := by
  unfold unary operateUnary
  congr 1
  funext value state
  simp only [Action.mapExit, Action.bind_apply, Action.look_apply]
  cases Operation.unary operator value state.store <;> rfl

variable {evaluate : Evaluator} {frame : Frame} {site : Span} {state after : State}
  {function : Builtin} {arguments : List Value} {list : ListId}

/-- An operator between two values changes no list. -/
theorem keepsLists_operate {operator : BinaryOperator} {left right : Value}
    (ended : (operate operator left right state).after? = some after) :
    state.store.KeepsListsBut none after.store := by
  intro list there _
  simp only [operate, Action.bind_apply, Action.memory_apply, Action.look_apply] at ended
  cases computed : Operation.binary state.host.memory operator left right state.store with
  | error fault =>
    rw [computed] at ended
    cases ended
    rfl
  | ok result =>
    rw [computed] at ended
    cases result with
    | value value =>
      cases ended
      rfl
    | list elements =>
      cases ended
      exact Store.elements_addList_of_lt there

/-- An operator that yields a list makes a new one. -/
theorem operate_makesList {operator : BinaryOperator} {left right : Value} {elements : Array Value}
    (computed : Operation.binary state.host.memory operator left right state.store =
      .ok (.list elements)) :
    (operate operator left right state).MakesList state.store elements := by
  refine ⟨⟨state.store.lists.size⟩, ⟨(state.store.addList elements).2, state.host⟩, ?_,
    Nat.le_refl _, Store.elements_addList elements⟩
  simp only [operate, Action.bind_apply, Action.memory_apply, Action.look_apply, computed]
  rfl

/-- A step that leaves the store as it is, however it ends. -/
def KeepsStore {ε α : Type} (step : Action ε α) : Prop :=
  ∀ state after, (step state).after? = some after → after.store = state.store

namespace KeepsStore

variable {ε α β : Type}

/-- A result by itself. -/
theorem pure (result : α) : KeepsStore (Pure.pure result : Action ε α) := fun _ _ ended =>
  congrArg State.store (Option.some.inj ended).symm

/-- An early end. -/
theorem leave (cause : ε) : KeepsStore (Action.leave cause : Action ε α) := fun _ _ ended =>
  congrArg State.store (Option.some.inj ended).symm

/-- Two steps in a row. -/
theorem bind {first : Action ε α} {next : α → Action ε β} (firsts : KeepsStore first)
    (nexts : ∀ result, KeepsStore (next result)) : KeepsStore (first >>= next) := by
  -- The second step, if there is one, begins with the store that the first one has left.
  intro state after ended
  rw [Action.bind_apply] at ended
  have before := firsts state
  cases outcome : first state with
  | value result middle =>
    rw [outcome] at ended before
    rw [nexts result middle after ended, before middle rfl]
  | exit cause middle =>
    rw [outcome] at ended before
    exact before after ended
  | unfinished =>
    rw [outcome] at ended
    cases ended

/-- Looking at the store. -/
theorem look (view : Store → α) : KeepsStore (Action.look view : Action ε α) := fun _ _ ended =>
  congrArg State.store (Option.some.inj ended).symm

/-- The text of a value. -/
theorem textOf (value : Value) : KeepsStore (Action.textOf value : Action ε String) := by
  apply bind (look _)
  intro text
  cases text with
  | none => exact fun _ _ ended => nomatch ended
  | some text => exact pure text

/-- Acting on the world. -/
theorem perform (frame : Frame) (span : Span) (deed : Host → Except String Host) :
    KeepsStore (Action.perform frame span deed) := by
  rintro ⟨store, host⟩ after ended
  simp only [Action.perform] at ended
  cases done : deed host <;> rw [done] at ended <;> cases ended <;> rfl

/-- Reading a line. -/
theorem readLine (frame : Frame) (span : Span) : KeepsStore (Action.readLine frame span) := by
  rintro ⟨store, host⟩ after ended
  simp only [Action.readLine] at ended
  split at ended <;> cases ended <;> rfl

/-- Counting the lines that can still be read. -/
theorem linesLeft : KeepsStore (Action.linesLeft : Action ε Nat) := fun _ _ ended =>
  congrArg State.store (Option.some.inj ended).symm

/-- Asking for the room that there is. -/
theorem memory : KeepsStore (Action.memory : Action ε Memory) := fun _ _ ended =>
  congrArg State.store (Option.some.inj ended).symm

/-- Reading an integer. -/
theorem readInteger (frame : Frame) (site : Span) (lines : Nat) :
    KeepsStore (Eval.readInteger frame site lines) := by
  -- The induction is on how many lines may be read.
  induction lines with
  | zero => exact fun _ _ ended => nomatch ended
  | succ lines ih =>
    apply bind (readLine frame site)
    intro line
    split
    · exact pure _
    · exact bind (perform frame site _) fun _ => ih

end KeepsStore

/-- An operator before a value leaves the store as it is. -/
theorem keepsStore_operateUnary (operator : UnaryOperator) (operand : Value) :
    KeepsStore (operateUnary operator operand) := by
  apply KeepsStore.bind (.look _)
  rintro (fault | result)
  · exact .leave fault
  · exact .pure result

/-- A failure leaves the store as it is. -/
theorem keepsStore_fail {α : Type} (frame : Frame) (cause : EvalError.Cause) (site : Span) :
    KeepsStore (Action.fail frame cause site : Action EvalError α) := KeepsStore.leave _

/--
What a call of a built-in function may do to lists: if it fails it changes none, and else only the
one that is its first argument.
-/
def ChangesFirst (arguments : List Value) (step : Action EvalError Value) : Prop :=
  ∀ state after,
    ((∃ error, step state = .exit error after) → state.store.KeepsListsBut none after.store) ∧
    ((∃ value, step state = .value value after) →
      state.store.KeepsListsBut (Value.firstList? arguments) after.store)

/-- A step that leaves the store as it is changes no list. -/
theorem KeepsStore.changesFirst {step : Action EvalError Value} (kept : KeepsStore step)
    (arguments : List Value) : ChangesFirst arguments step := by
  intro state after
  constructor
  · rintro ⟨error, ended⟩ list _ _
    rw [kept state after (by rw [ended]; rfl)]
  · rintro ⟨value, ended⟩ list _ _
    rw [kept state after (by rw [ended]; rfl)]

/-- A change of the list that is the first argument. -/
theorem changesFirst_modifyList (list : ListId) (rest : List Value)
    (change : Array Value → Array Value) (value : Value) :
    ChangesFirst (.list list :: rest) (do
      Action.change (Store.modifyList list change)
      return value) := by
  intro state after
  constructor
  · rintro ⟨error, ended⟩
    cases ended
  · rintro ⟨value, ended⟩ place _ differs
    cases ended
    exact Store.elements_modifyList_of_ne fun same => differs (congrArg some same.symm)

/-- A step that looks at the elements of a list first. -/
theorem changesFirst_look {next : Array Value → Action EvalError Value} {other : ListId}
    (changes : ∀ elements, ChangesFirst arguments (next elements)) :
    ChangesFirst arguments (Action.look (·.elements other) >>= next) :=
  fun state => changes (state.store.elements other) state

/-- Putting a value at the end of a list. -/
theorem changesFirst_append (first second : Value) :
    ChangesFirst [first, second] (append frame site first second) := by
  cases first with
  | list list => exact changesFirst_modifyList list [second] _ .null
  | number | text | closure | builtin => exact (keepsStore_fail frame _ site).changesFirst _

/-- Taking an element out of a list. -/
theorem changesFirst_pop (first second : Value) :
    ChangesFirst [first, second] (pop frame site first second) := by
  -- Only an index that means a place lets the list be changed.
  unfold pop
  split
  · rename_i list index
    apply changesFirst_look
    intro elements
    split
    · exact (keepsStore_fail frame _ site).changesFirst _
    · exact changesFirst_modifyList list _ _ _
  · exact (keepsStore_fail frame _ site).changesFirst _
  · exact (keepsStore_fail frame _ site).changesFirst _

/-- Putting the elements of a list at the end of another one. -/
theorem changesFirst_extend (first second : Value) :
    ChangesFirst [first, second] (extend frame site first second) := by
  -- The second list is read as it is before the first one is changed.
  unfold extend
  split
  · rename_i target other
    apply changesFirst_look
    intro extra
    exact changesFirst_modifyList target _ _ .null
  · exact (keepsStore_fail frame _ site).changesFirst _
  · exact (keepsStore_fail frame _ site).changesFirst _

/-- Counting elements or characters. -/
theorem keepsStore_length (value : Value) : KeepsStore (length frame site value) := by
  unfold length
  split
  · exact KeepsStore.bind (KeepsStore.look _) fun _ => KeepsStore.pure _
  · exact KeepsStore.pure _
  · exact keepsStore_fail frame _ site

/-- A call of a built-in function that changes a list in place. -/
theorem changesFirst_callValue (inPlace : function ∈ [.append, .pop, .extend])
    (arguments : List Value) :
    ChangesFirst arguments
      (callValue builtin evaluate frame site (.builtin function) arguments) := by
  rcases callValue_builtin_cases evaluate frame site function arguments with
    ⟨cause, refused⟩ | ⟨count, entered⟩
  · rw [refused]
    exact (keepsStore_fail frame cause site).changesFirst _
  · -- Each of the three functions takes two arguments.
    rw [entered]
    simp only [List.mem_cons, List.not_mem_nil, or_false] at inPlace
    rcases inPlace with rfl | rfl | rfl <;>
      obtain ⟨first, second, rfl⟩ := List.length_eq_two.mp count
    · exact changesFirst_append first second
    · exact changesFirst_pop first second
    · exact changesFirst_extend first second

/-- A call of any other built-in function, unless it runs a script, leaves the store as it is. -/
theorem keepsStore_callValue (other : function ∉ [.append, .pop, .extend]) (plain : function ≠ .run)
    (arguments : List Value) :
    KeepsStore (callValue builtin evaluate frame site (.builtin function) arguments) := by
  rcases callValue_builtin_cases evaluate frame site function arguments with
    ⟨cause, refused⟩ | ⟨-, entered⟩
  · rw [refused]
    exact keepsStore_fail frame cause site
  · rw [entered]
    cases function with
    | append | pop | extend => simp at other
    | print => exact .bind (.textOf _) fun _ => .bind (.perform _ _ _) fun _ => .pure _
    | printRet => exact .bind (.textOf _) fun _ => .pure _
    | input => exact .bind (.readLine _ _) fun _ => .pure _
    | inputInt => exact .bind .linesLeft fun lines => .bind (.readInteger _ _ _) fun _ => .pure _
    | clear => exact .bind (.perform _ _ _) fun _ => .pure _
    | isNumber | isText | isList | isFunction => exact .pure _
    | length => exact keepsStore_length _
    | run => exact absurd rfl plain

/--
An index is good for the element at a place of a list: one operator answers the element, another one
makes a list of the rest, and the function answers the element and leaves the rest in the list.
-/
structure TakesElement (evaluate : Evaluator) (frame : Frame) (site : Span) (state : State)
    (list : ListId) (index : Int64) (element : Value) (rest : Array Value) : Prop where
  answered : operate .div (.list list) (.number (.int index)) state = .value element state
  copied : (operate .sub (.list list) (.number (.int index)) state).MakesList state.store rest
  popped : (callValue builtin evaluate frame site (.builtin .pop)
    [.list list, .number (.int index)] state).LeavesList element list rest

/-- An index is out of bounds for both operators and for the function, and nothing changes. -/
structure RefusesIndex (evaluate : Evaluator) (frame : Frame) (site : Span) (state : State)
    (list : ListId) (index : Int64) : Prop where
  answered : operate .div (.list list) (.number (.int index)) state =
    .exit (.outOfBounds .retrieval) state
  copied : operate .sub (.list list) (.number (.int index)) state =
    .exit (.outOfBounds .removal) state
  popped : callValue builtin evaluate frame site (.builtin .pop)
    [.list list, .number (.int index)] state =
      .exit ((frame.enter Builtin.pop.name site).error (.operation (.outOfBounds .removal)) site)
        state

/-- A place that an index means is good for its element. -/
theorem takesElement (there : list.index < state.store.lists.size) {index : Int64} {place : Nat}
    (found : Numeric.resolveIndex index (state.store.elements list).size = some place)
    (short : place < (state.store.elements list).size) :
    TakesElement evaluate frame site state list index (state.store.elements list)[place]
      ((state.store.elements list).eraseIdx place) := by
  have element := Array.getElem?_eq_getElem short
  have rest : (state.store.elements list).eraseIdxIfInBounds place =
      (state.store.elements list).eraseIdx place := dif_pos short
  -- The operators and the function ask for the place of an index in the same way.
  have placed (access : Access) :
      Operation.place (state.store.elements list) index access = .ok place := by
    rw [Operation.place, found]
  constructor
  · simp only [operate, Action.bind_apply, Action.memory_apply, Action.look_apply,
      Operation.binary, Operation.list, placed]
    show Outcome.value ((state.store.elements list)[place]?.getD .null) state = _
    rw [element]
    rfl
  · apply operate_makesList
    simp only [Operation.binary, Operation.list, placed]
    exact congrArg (fun elements => Except.ok (Operation.Result.list elements)) rest
  · have fits : [Value.list list, .number (.int index)].length = Builtin.pop.parameters.length :=
      rfl
    rw [callValue_builtin fits]
    show (pop (frame.enter Builtin.pop.name site) site (.list list) (.number (.int index))
      state).LeavesList _ list _
    simp only [pop, Action.bind_apply, Action.look_apply, placed, element]
    refine ⟨_, rfl, ?_⟩
    rw [← rest]
    exact Store.elements_modifyList_self there

/-- An index that means no place is refused. -/
theorem refusesIndex {index : Int64}
    (missing : Numeric.resolveIndex index (state.store.elements list).size = none) :
    RefusesIndex evaluate frame site state list index := by
  -- All three ask for the place before they do anything else.
  have misplaced (access : Access) :
      Operation.place (state.store.elements list) index access = .error (.outOfBounds access) := by
    rw [Operation.place, missing]
  constructor
  · simp only [operate, Action.bind_apply, Action.memory_apply, Action.look_apply,
      Operation.binary, Operation.list, misplaced]
    rfl
  · simp only [operate, Action.bind_apply, Action.memory_apply, Action.look_apply,
      Operation.binary, Operation.list, misplaced]
    rfl
  · have fits : [Value.list list, .number (.int index)].length = Builtin.pop.parameters.length :=
      rfl
    rw [callValue_builtin fits]
    show pop (frame.enter Builtin.pop.name site) site (.list list) (.number (.int index)) state = _
    simp only [pop, Action.bind_apply, Action.look_apply, misplaced]
    rfl

/--
The functions that change a list in place agree with the operators that yield new lists. They take
out the same elements at the same indices, add the same values and join with the same lists, itself
included. Operators change no list. Calls of the three functions change at most the list that is
their first argument, and none when they fail. Every other built-in function leaves all lists as
they are, but for `RUN`, whose script makes calls of its own.
-/
theorem inPlace_agrees (there : list.index < state.store.lists.size) (evaluate : Evaluator)
    (frame : Frame) (site : Span) :
    (∀ index : Int64,
      (-((state.store.elements list).size : Int) ≤ index.toInt ∧
          index.toInt < (state.store.elements list).size →
        ∃ (place : Nat) (short : place < (state.store.elements list).size),
          (place : Int) = (if 0 ≤ index.toInt then index.toInt
            else (state.store.elements list).size + index.toInt) ∧
          TakesElement evaluate frame site state list index (state.store.elements list)[place]
            ((state.store.elements list).eraseIdx place)) ∧
      (¬ (-((state.store.elements list).size : Int) ≤ index.toInt ∧
          index.toInt < (state.store.elements list).size) →
        RefusesIndex evaluate frame site state list index)) ∧
    (∀ value,
      (operate .add (.list list) value state).MakesList state.store
        ((state.store.elements list).push value) ∧
      (callValue builtin evaluate frame site (.builtin .append) [.list list, value]
        state).LeavesList .null list ((state.store.elements list).push value)) ∧
    (∀ other,
      (operate .mul (.list list) (.list other) state).MakesList state.store
        (state.store.elements list ++ state.store.elements other) ∧
      (callValue builtin evaluate frame site (.builtin .extend) [.list list, .list other]
        state).LeavesList .null list (state.store.elements list ++ state.store.elements other)) ∧
    (∀ operator left right after, (operate operator left right state).after? = some after →
      state.store.KeepsListsBut none after.store) ∧
    (∀ operator operand, KeepsStore (operateUnary operator operand)) ∧
    (∀ arguments,
      (∀ function ∈ [.append, .pop, .extend], ChangesFirst arguments
        (callValue builtin evaluate frame site (.builtin function) arguments)) ∧
      ∀ function, function ∈ [.append, .pop, .extend] ∨ function = .run ∨
        KeepsStore (callValue builtin evaluate frame site (.builtin function) arguments)) := by
  refine ⟨fun index => ⟨fun inside => ?_, fun outside => ?_⟩, fun value => ⟨?_, ?_⟩,
    fun other => ⟨?_, ?_⟩, fun _ _ _ _ ended => keepsLists_operate ended,
    fun operator operand => keepsStore_operateUnary operator operand,
    fun arguments => ⟨fun _ inPlace => changesFirst_callValue inPlace arguments,
      fun function => ?_⟩⟩
  · -- A place is found exactly where the index is near enough to an end.
    cases found : Numeric.resolveIndex index (state.store.elements list).size with
    | none => exact absurd inside (Numeric.resolveIndex_eq_none_iff.mp found)
    | some place =>
      obtain ⟨short, offset⟩ := Numeric.resolveIndex_eq_some_iff.mp found
      refine ⟨place, short, ?_, takesElement there found short⟩
      split <;> split at offset <;> omega
  · exact refusesIndex (Numeric.resolveIndex_eq_none_iff.mpr outside)
  · exact operate_makesList rfl
  · have fits : [Value.list list, value].length = Builtin.append.parameters.length := rfl
    rw [callValue_builtin fits]
    exact ⟨⟨state.store.modifyList list (·.push value), state.host⟩, rfl,
      Store.elements_modifyList_self there⟩
  · exact operate_makesList rfl
  · have fits : [Value.list list, .list other].length = Builtin.extend.parameters.length := rfl
    rw [callValue_builtin fits]
    exact ⟨⟨state.store.modifyList list (· ++ state.store.elements other), state.host⟩, rfl,
      Store.elements_modifyList_self there⟩
  · by_cases inPlace : function ∈ [.append, .pop, .extend]
    · exact .inl inPlace
    · by_cases run : function = .run
      · exact .inr (.inl run)
      · exact .inr (.inr (keepsStore_callValue inPlace run arguments))

/-- A state with one list, of the integers one and two. -/
def onePair : State where
  store := (Store.empty.addList #[.number (.int 1), .number (.int 2)]).2
  host := Host.prepared [] [] .gibibyte .none

/-- A list that is joined with itself has all its elements twice; indices count from both ends. -/
theorem inPlace_agrees_doubling :
    0 < onePair.store.lists.size ∧
      (callValue builtin (Scriptlet.evaluate 1) (.ofProgram ⟨0⟩ ⟨0⟩) default (.builtin .extend)
        [.list ⟨0⟩, .list ⟨0⟩] onePair).LeavesList .null ⟨0⟩
          #[.number (.int 1), .number (.int 2), .number (.int 1), .number (.int 2)] ∧
      TakesElement (Scriptlet.evaluate 1) (.ofProgram ⟨0⟩ ⟨0⟩) default onePair ⟨0⟩ (-1)
        (.number (.int 2)) #[.number (.int 1)] ∧
      RefusesIndex (Scriptlet.evaluate 1) (.ofProgram ⟨0⟩ ⟨0⟩) default onePair ⟨0⟩
        (-0x8000000000000000) := by
  have there : (⟨0⟩ : ListId).index < onePair.store.lists.size := by decide
  obtain ⟨indices, -, joins, -⟩ :=
    inPlace_agrees there (Scriptlet.evaluate 1) (.ofProgram ⟨0⟩ ⟨0⟩) default
  obtain ⟨place, short, offset, takes⟩ := (indices (-1)).1 (by decide)
  obtain rfl : place = 1 := Int.ofNat.inj offset
  have rest : (onePair.store.elements ⟨0⟩).eraseIdx 1 short = #[.number (.int 1)] := by
    rw [← Array.toList_inj, Array.toList_eraseIdx]
    rfl
  exact ⟨there, (joins ⟨0⟩).2, rest ▸ takes, (indices (-0x8000000000000000)).2 (by decide)⟩

end Eval

end Scriptlet
