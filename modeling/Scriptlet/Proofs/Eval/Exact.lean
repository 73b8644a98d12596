import Scriptlet.Eval
import Scriptlet.Proofs.Numeric.Remainder
import Scriptlet.Proofs.Syntax.Similarity

/-!
Integer expressions have exact values. While those fit into words they are what evaluation yields,
and a remainder by zero is found where exact values have come to it.
-/

namespace Scriptlet

/-- The integer that stands for a condition. -/
def exactTruth (condition : Prop) [Decidable condition] : Int :=
  if condition then 1 else 0

/-- What an operator before an exact integer yields. -/
def UnaryOperator.exactResult (operator : UnaryOperator) (operand : Int) : Int :=
  match operator with
  | .negate => -operand
  | .plus => operand
  | .not => exactTruth (operand = 0)

/--
What an operator between two exact integers yields. Remainders are those of floored quotients, and
there is none by zero; quotients and powers are no integers in general.
-/
def BinaryOperator.exactResult? (operator : BinaryOperator) (left right : Int) : Option Int :=
  match operator with
  | .add => some (left + right)
  | .sub => some (left - right)
  | .mul => some (left * right)
  | .rem => if right = 0 then none else some (left.fmod right)
  | .equal => some (exactTruth (left = right))
  | .notEqual => some (exactTruth (left ≠ right))
  | .less => some (exactTruth (left < right))
  | .greater => some (exactTruth (left > right))
  | .lessEqual => some (exactTruth (left ≤ right))
  | .greaterEqual => some (exactTruth (left ≥ right))
  | .and => some (exactTruth (left ≠ 0 ∧ right ≠ 0))
  | .or => some (exactTruth (left ≠ 0 ∨ right ≠ 0))
  | .div | .pow => none

namespace Node

/-- Expressions over integer literals, with all operators but those for quotients and powers. -/
inductive IsArithmetic : Node → Prop where
  | int {span : Span} {value : Int64} (unsigned : 0 ≤ value.toInt) : IsArithmetic (.int span value)
  | unary {span : Span} {operator : UnaryOperator} {operand : Node} (inner : IsArithmetic operand) :
    IsArithmetic (.unary span operator operand)
  | binary {span : Span} {operator : BinaryOperator} {left right : Node}
    (whole : operator ≠ .div ∧ operator ≠ .pow) (lefts : IsArithmetic left)
    (rights : IsArithmetic right) : IsArithmetic (.binary span operator left right)

/-- The exact value of an integer expression, if it has one. -/
def exactValue? : Node → Option Int
  | .int _ value => some value.toInt
  | .unary _ operator operand => operand.exactValue?.map operator.exactResult
  | .binary _ operator left right =>
    left.exactValue?.bind fun one => right.exactValue?.bind fun other => operator.exactResult? one other
  | _ => none

/-- The expressions in an expression from left to right, each one behind its operands. -/
def operations : Node → List Node
  | .unary span operator operand => operand.operations ++ [.unary span operator operand]
  | .binary span operator left right =>
    left.operations ++ right.operations ++ [.binary span operator left right]
  | node => [node]

/-- An expression has an exact value that fits into a word. -/
def Fits (node : Node) : Prop :=
  ∃ exact, node.exactValue? = some exact ∧ Numeric.leastWord ≤ exact ∧ exact ≤ Numeric.greatestWord

/-- Whether the value of an expression fits can be computed. -/
instance (node : Node) : Decidable node.Fits :=
  match found : node.exactValue? with
  | none => isFalse fun ⟨_, same, _⟩ => nomatch found.symm.trans same
  | some exact =>
    decidable_of_iff (Numeric.leastWord ≤ exact ∧ exact ≤ Numeric.greatestWord)
      ⟨fun inside => ⟨exact, found, inside⟩, fun ⟨_, same, inside⟩ => by
        cases found.symm.trans same
        exact inside⟩

/-- A value that fits is the integer of a word. -/
theorem Fits.exists_word {node : Node} (fits : node.Fits) :
    ∃ word : Int64, node.exactValue? = some word.toInt := by
  obtain ⟨exact, found, inside⟩ := fits
  have fitted : Numeric.fit exact = some (Int64.ofInt exact) := if_pos inside
  exact ⟨Int64.ofInt exact, by rw [found, Numeric.fit_eq_some_iff.mp fitted]⟩

end Node

namespace Operation

open Numeric

variable {left right word : Int64}

/-- A word is zero when its integer is. -/
theorem isZero_int (word : Int64) : (Number.int word).isZero = decide (word.toInt = 0) := by
  show (word == 0) = decide (word.toInt = Int64.toInt 0)
  rw [beq_eq_decide, decide_eq_decide, Int64.toInt_inj]

/-- The word that stands for a condition is the integer that does. -/
theorem ofBool_eq_int {condition : Prop} [Decidable condition] {holds : Bool}
    (answers : holds = decide condition) (same : exactTruth condition = word.toInt) :
    Value.ofBool holds = .number (.int word) := by
  have truth : (if condition then 1 else 0 : Int64) = word := by
    rw [← Int64.toInt_inj, ← same, exactTruth]
    split <;> rfl
  simp [Value.ofBool, Number.ofBool, answers, truth]

/-- Words are ordered like their integers. -/
theorem compare?_int (left right : Int64) :
    (Number.int left).compare? (Number.int right) =
      some (if left.toInt < right.toInt then .lt else if left.toInt = right.toInt then .eq else .gt) :=
  rfl

/-- An operation on words whose exact result is a word yields that word. -/
theorem numbers_exact {operator : BinaryOperator}
    (exact : operator.exactResult? left.toInt right.toInt = some word.toInt) :
    numbers operator (.int left) (.int right) = .ok (.number (.int word)) := by
  cases operator with
  | add | sub | mul =>
    have fitted := fit_eq_some_iff.mpr (Option.some.inj exact).symm
    simp only [numbers, scalar, Number.add, Number.sub, Number.mul, Number.exactOr, fitted]
    rfl
  | rem =>
    -- The divisor is not zero, and the remainder is a word.
    simp only [BinaryOperator.exactResult?] at exact
    split at exact
    · cases exact
    · rename_i nonzero
      have apart : right ≠ 0 := fun zero => nonzero (by rw [zero]; rfl)
      have remainder : flooredWordRemainder left right = word := by
        rw [← Int64.toInt_inj, toInt_flooredWordRemainder apart, Option.some.inj exact]
      simp only [numbers, scalar, Number.rem?, isZero_int, nonzero, decide_false, remainder]
      rfl
  | div => cases exact
  | pow => cases exact
  | equal | notEqual | less | greater | lessEqual | greaterEqual =>
    refine congrArg Except.ok (ofBool_eq_int ?_ (Option.some.inj exact))
    rw [compare?_int]
    -- One case for each order of the two words.
    rcases Int.lt_trichotomy left.toInt right.toInt with less | same | greater
    · have apart : left.toInt ≠ right.toInt := by omega
      have notGreater : ¬ right.toInt < left.toInt := by omega
      have notGreaterEqual : ¬ right.toInt ≤ left.toInt := by omega
      simp [less, apart, notGreater, notGreaterEqual, Int.le_of_lt less]
    · simp [same]
    · have apart : left.toInt ≠ right.toInt := by omega
      have notLess : ¬ left.toInt < right.toInt := by omega
      have notLessEqual : ¬ left.toInt ≤ right.toInt := by omega
      simp [greater, apart, notLess, notLessEqual, Int.le_of_lt greater]
  | and | or =>
    refine congrArg Except.ok (ofBool_eq_int ?_ (Option.some.inj exact))
    simp [isZero_int]

/-- There is no remainder by zero. -/
theorem numbers_rem_zero (zero : right.toInt = 0) :
    numbers .rem (.int left) (.int right) = .error .divisionByZero := by
  simp only [numbers, scalar, Number.rem?, isZero_int, zero, decide_true, if_true]
  rfl

/-- An operator between two words whose exact result is a word yields that word. -/
theorem binary_exact {operator : BinaryOperator}
    (exact : operator.exactResult? left.toInt right.toInt = some word.toInt) (memory : Memory)
    (store : Store) :
    binary memory operator (.number (.int left)) (.number (.int right)) store =
      .ok (.value (.number (.int word))) := by
  rw [binary, numbers_exact exact]
  rfl

/--
The product of the divisor and the floored quotient, if it is a word, and the sum of that and the
remainder are what programs compute, too, and the sum equals the dividend.
-/
def Recomposes (dividend divisor rest : Int64) (memory : Memory) (store : Store) : Prop :=
  ∀ product : Int64,
    product.toInt = divisor.toInt * flooredQuotient dividend.toInt divisor.toInt →
    (∀ quotient : Int64, quotient.toInt = flooredQuotient dividend.toInt divisor.toInt →
      binary memory .mul (.number (.int divisor)) (.number (.int quotient)) store =
        .ok (.value (.number (.int product)))) ∧
    ∃ sum : Int64,
      binary memory .add (.number (.int product)) (.number (.int rest)) store =
        .ok (.value (.number (.int sum))) ∧
      binary memory .equal (.number (.int dividend)) (.number (.int sum)) store =
        .ok (.value (.ofBool true))

/-- Where the remainder is what a floored quotient leaves over, the dividend is composed again. -/
theorem recomposes {dividend divisor rest : Int64}
    (floored : FlooredRest dividend.toInt divisor.toInt rest.toInt) (memory : Memory)
    (store : Store) :
    Recomposes dividend divisor rest memory store := by
  intro product whole
  refine ⟨fun quotient same => binary_exact ?_ memory store, dividend, binary_exact ?_ memory store,
    (binary_exact ?_ memory store).trans rfl⟩
  · rw [BinaryOperator.exactResult?, same, whole]
  · rw [BinaryOperator.exactResult?, floored.exact, whole, Int.add_comm, Int.sub_add_cancel]
  · rw [BinaryOperator.exactResult?, exactTruth, if_pos rfl]
    rfl

/--
The remainder of two words is that of their floored quotient, whatever their signs: there is one
unless the divisor is zero, it is zero or has the divisor's sign, and it is less than the divisor in
magnitude. No step to it leaves the range of words.
-/
theorem rem_floored (dividend divisor : Int64) (memory : Memory) (store : Store) :
    ((Number.int dividend).rem? (.int divisor) = none ↔ divisor = 0) ∧
      (binary memory .rem (.number (.int dividend)) (.number (.int divisor)) store =
        .error .divisionByZero ↔ divisor = 0) ∧
      (divisor ≠ 0 → StaysInside dividend divisor ∧ ∃ rest : Int64,
        (Number.int dividend).rem? (.int divisor) = some (.int rest) ∧
        binary memory .rem (.number (.int dividend)) (.number (.int divisor)) store =
          .ok (.value (.number (.int rest))) ∧
        FlooredRest dividend.toInt divisor.toInt rest.toInt ∧
        Recomposes dividend divisor rest memory store) := by
  by_cases zero : divisor = 0
  · -- Nothing is left over by zero, in the numbers and in the operator alike.
    have none : (Number.int dividend).rem? (.int divisor) = none := by
      rw [zero]
      rfl
    have failed : numbers .rem (.int dividend) (.int divisor) = .error .divisionByZero :=
      numbers_rem_zero (by rw [zero]; rfl)
    refine ⟨iff_of_true none zero, iff_of_true ?_ zero, fun nonzero => absurd zero nonzero⟩
    rw [binary, failed]
    rfl
  · have apart : divisor.toInt ≠ 0 := fun same => zero (Int64.toInt_inj.mp same)
    -- The word that is computed is the exact remainder of the floored quotient.
    have whole : (flooredWordRemainder dividend divisor).toInt =
        dividend.toInt.fmod divisor.toInt := toInt_flooredWordRemainder zero
    have found : (Number.int dividend).rem? (.int divisor) =
        some (.int (flooredWordRemainder dividend divisor)) := by
      rw [Number.rem?, isZero_int, decide_eq_false apart]
      rfl
    have exact : BinaryOperator.exactResult? .rem dividend.toInt divisor.toInt =
        some (flooredWordRemainder dividend divisor).toInt := by
      rw [BinaryOperator.exactResult?, if_neg apart, whole]
    have evaluated := binary_exact exact memory store
    have floored := flooredRest_fmod dividend.toInt apart
    rw [← whole] at floored
    refine ⟨iff_of_false (by rw [found]; nofun) zero,
      iff_of_false (by rw [evaluated]; nofun) zero, fun _ => ⟨staysInside zero, _, found,
        evaluated, floored, recomposes floored memory store⟩⟩

/-- The least word by minus one, whose quotient does not fit, leaves nothing over. -/
theorem rem_floored_least :
    (-1 : Int64) ≠ 0 ∧ StaysInside Int64.minValue (-1) ∧
      binary .gibibyte .rem (.number (.int Int64.minValue)) (.number (.int (-1))) .empty =
        .ok (.value (.number (.int 0))) ∧
      FlooredRest (-0x8000000000000000) (-1) 0 ∧
      Recomposes Int64.minValue (-1) 0 .gibibyte .empty := by
  have apart : (-1 : Int64) ≠ 0 := by decide
  obtain ⟨inside, rest, found, evaluated, floored, recomposed⟩ :=
    (rem_floored Int64.minValue (-1) .gibibyte .empty).2.2 apart
  have nothing : (Number.int Int64.minValue).rem? (.int (-1)) = some (.int 0) := by decide
  cases found.symm.trans nothing
  exact ⟨apart, inside, evaluated, floored, recomposed⟩

/-- An operator before a word whose exact result is a word yields that word. -/
theorem unary_exact {operator : UnaryOperator} (exact : operator.exactResult left.toInt = word.toInt)
    (store : Store) :
    unary operator (.number (.int left)) store = .ok (.number (.int word)) := by
  cases operator with
  | negate =>
    have fitted : fit (-left.toInt) = some word := fit_eq_some_iff.mpr exact.symm
    simp only [unary, Number.negate, fitted]
  | plus =>
    have same : left = word := Int64.toInt_inj.mp exact
    rw [same]
    rfl
  | not =>
    refine congrArg Except.ok (ofBool_eq_int ?_ exact)
    simp [Store.truth, isZero_int]

end Operation

namespace Node

variable {node : Node} {reach place : Nat} {frame : Frame} {state : State} {site : Span}
  {operator : BinaryOperator} {left right : Node}

/-- An operation between two constructs with words as values, which has a word as its value. -/
theorem evaluate_binary {one other word : Int64}
    (lefts : evaluate reach left frame state = .value (.number (.int one)) state)
    (rights : evaluate reach right frame state = .value (.number (.int other)) state)
    (exact : operator.exactResult? one.toInt other.toInt = some word.toInt) :
    evaluate (reach + 1) (.binary site operator left right) frame state =
      .value (.number (.int word)) state := by
  show Eval.binary (evaluate reach) frame site operator left right state = _
  simp only [Eval.binary, Action.bind_apply, lefts, rights, Action.memory_apply, Action.look_apply,
    Operation.binary, Operation.numbers_exact exact]
  rfl

/-- An operator before a construct with a word as value, which has a word as its value. -/
theorem evaluate_unary {operator : UnaryOperator} {operand : Node} {one word : Int64}
    (valued : evaluate reach operand frame state = .value (.number (.int one)) state)
    (exact : operator.exactResult one.toInt = word.toInt) :
    evaluate (reach + 1) (.unary site operator operand) frame state =
      .value (.number (.int word)) state := by
  show Eval.unary (evaluate reach) frame site operator operand state = _
  simp only [Eval.unary, Action.bind_apply, valued, Action.look_apply,
    Operation.unary_exact exact]
  rfl

/-- A remainder by a construct whose value is zero fails at that construct. -/
theorem evaluate_rem {one other : Int64}
    (lefts : evaluate reach left frame state = .value (.number (.int one)) state)
    (rights : evaluate reach right frame state = .value (.number (.int other)) state)
    (zero : other.toInt = 0) :
    evaluate (reach + 1) (.binary site .rem left right) frame state =
      .exit (.failed (frame.error (.operation .divisionByZero) right.span)) state := by
  show Eval.binary (evaluate reach) frame site .rem left right state = _
  simp only [Eval.binary, Action.bind_apply, lefts, rights, Action.memory_apply, Action.look_apply,
    Operation.binary, Operation.numbers_rem_zero zero]
  rfl

/-- An expression in which all values fit is evaluated to its exact value. -/
theorem IsArithmetic.evaluate_exact (arithmetic : node.IsArithmetic)
    (fits : ∀ part ∈ node.operations, part.Fits) (deep : node.operations.length ≤ reach)
    (frame : Frame) (state : State) :
    ∃ word : Int64, node.exactValue? = some word.toInt ∧
      evaluate reach node frame state = .value (.number (.int word)) state := by
  -- The induction is on how the expression is made of others.
  induction arithmetic generalizing reach with
  | @int span value unsigned =>
    cases reach with
    | zero => simp [operations] at deep
    | succ reach => exact ⟨value, rfl, rfl⟩
  | @unary span operator operand inner ih =>
    simp only [operations, List.forall_mem_append, List.forall_mem_singleton] at fits
    cases reach with
    | zero => simp [operations] at deep
    | succ reach =>
      obtain ⟨one, found, valued⟩ := ih fits.1 (by simpa [operations] using deep)
      obtain ⟨word, whole⟩ := fits.2.exists_word
      have exact : operator.exactResult one.toInt = word.toInt := by
        simpa [exactValue?, found] using whole
      exact ⟨word, whole, evaluate_unary valued exact⟩
  | @binary span operator left right _ lefts rights ihLeft ihRight =>
    simp only [operations, List.forall_mem_append, List.forall_mem_singleton] at fits
    obtain ⟨⟨fitsLeft, fitsRight⟩, fitsWhole⟩ := fits
    cases reach with
    | zero => simp [operations] at deep
    | succ reach =>
      simp only [operations, List.length_append, List.length_singleton] at deep
      have deepLeft : left.operations.length ≤ reach := by omega
      have deepRight : right.operations.length ≤ reach := by omega
      obtain ⟨one, foundLeft, valuedLeft⟩ := ihLeft fitsLeft deepLeft
      obtain ⟨other, foundRight, valuedRight⟩ := ihRight fitsRight deepRight
      obtain ⟨word, whole⟩ := fitsWhole.exists_word
      have exact : operator.exactResult? one.toInt other.toInt = some word.toInt := by
        simpa [exactValue?, foundLeft, foundRight] using whole
      exact ⟨word, whole, evaluate_binary valuedLeft valuedRight exact⟩

/--
An expression in which all values fit before a remainder by zero fails there, at the divisor, and
nothing that comes later makes a difference.
-/
theorem IsArithmetic.evaluate_rem_zero (arithmetic : node.IsArithmetic)
    (found : node.operations[place]? = some (.binary site .rem left right))
    (zero : right.exactValue? = some 0) (fits : ∀ part ∈ node.operations.take place, part.Fits)
    (deep : node.operations.length ≤ reach) (frame : Frame) (state : State) :
    evaluate reach node frame state =
      .exit (.failed (frame.error (.operation .divisionByZero) right.span)) state := by
  -- The remainder is in the part of the expression that its place points into.
  induction arithmetic generalizing reach place with
  | @int span value unsigned =>
    cases place with
    | zero => cases found
    | succ place => cases found
  | @unary span operator operand inner ih =>
    simp only [operations, List.length_append, List.length_singleton] at deep
    simp only [operations] at found fits
    obtain ⟨reach, rfl⟩ : ∃ less, reach = less + 1 := ⟨reach - 1, by omega⟩
    have inside : place < operand.operations.length := by
      by_contra outside
      rw [List.getElem?_append_right (by omega)] at found
      cases List.mem_singleton.mp (List.mem_of_getElem? found)
    rw [List.getElem?_append_left inside] at found
    rw [List.take_append_of_le_length (by omega)] at fits
    have inner : operand.operations.length ≤ reach := by omega
    have failed := ih found fits inner
    show Eval.unary (Scriptlet.evaluate reach) frame span operator operand state = _
    simp only [Eval.unary, Action.bind_apply, failed]
  | @binary span operator one other _ lefts rights ihLeft ihRight =>
    simp only [operations, List.length_append, List.length_singleton] at deep
    simp only [operations, List.append_assoc] at found fits
    obtain ⟨reach, rfl⟩ : ∃ less, reach = less + 1 := ⟨reach - 1, by omega⟩
    have deepLeft : one.operations.length ≤ reach := by omega
    have deepRight : other.operations.length ≤ reach := by omega
    by_cases inLeft : place < one.operations.length
    · rw [List.getElem?_append_left inLeft] at found
      rw [List.take_append_of_le_length (by omega)] at fits
      have failed := ihLeft found fits deepLeft
      show Eval.binary (Scriptlet.evaluate reach) frame span operator one other state = _
      simp only [Eval.binary, Action.bind_apply, failed]
    · -- The left operand comes before the remainder, so it has a value.
      obtain ⟨behind, rfl⟩ := Nat.exists_eq_add_of_le (Nat.le_of_not_lt inLeft)
      rw [List.getElem?_append_right (by omega), Nat.add_sub_cancel_left] at found
      rw [List.take_length_add_append, List.forall_mem_append] at fits
      obtain ⟨fitsLeft, fits⟩ := fits
      obtain ⟨first, foundLeft, valuedLeft⟩ := lefts.evaluate_exact fitsLeft deepLeft frame state
      by_cases inRight : behind < other.operations.length
      · rw [List.getElem?_append_left inRight] at found
        rw [List.take_append_of_le_length (by omega)] at fits
        have failed := ihRight found fits deepRight
        show Eval.binary (Scriptlet.evaluate reach) frame span operator one other state = _
        simp only [Eval.binary, Action.bind_apply, valuedLeft, failed]
      · -- The remainder is the whole, and its divisor has the value zero.
        rw [List.getElem?_append_right (by omega)] at found
        obtain ⟨last, -⟩ := List.getElem?_eq_some_iff.mp found
        rw [List.length_singleton] at last
        cases List.mem_singleton.mp (List.mem_of_getElem? found)
        rw [List.take_append_of_le_length (by omega), List.take_of_length_le (by omega)] at fits
        obtain ⟨second, foundRight, valuedRight⟩ :=
          rights.evaluate_exact fits deepRight frame state
        have none : second.toInt = 0 := Option.some.inj (foundRight.symm.trans zero)
        exact evaluate_rem valuedLeft valuedRight none

end Node

end Scriptlet
