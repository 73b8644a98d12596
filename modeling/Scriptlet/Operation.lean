import Scriptlet.Store
import Scriptlet.Text.Repetition

/-! What the operators do with values. -/

namespace Scriptlet

/-- What an operation was about to do with an element of a list. -/
inductive Access where
  | removal | retrieval
deriving DecidableEq, Repr

/-- Why an operation has no result. -/
inductive Operation.Fault where
  | illegal
  | tooLarge
  | divisionByZero
  | outOfBounds (access : Access)
deriving DecidableEq, Repr

/-- What an operation yields: a value, or the elements of a list that is yet to be made. -/
inductive Operation.Result where
  | value (value : Value)
  | list (elements : Array Value)
deriving DecidableEq

namespace Operation

/-- Arithmetic on two numbers. -/
def scalar (operator : BinaryOperator) (left right : Number) : Except Fault Number :=
  let orZero (result : Option Number) : Except Fault Number :=
    match result with
    | some number => .ok number
    | none => .error .divisionByZero
  match operator with
  | .add => .ok (left.add right)
  | .sub => .ok (left.sub right)
  | .mul => .ok (left.mul right)
  | .div => orZero (left.div? right)
  | .rem => orZero (left.rem? right)
  | .pow => orZero (left.pow? right)
  | _ => .error .illegal

/-- Comparison of two numbers; nothing but inequality holds of a number that is none. -/
def comparison (operator : BinaryOperator) (left right : Number) : Except Fault Bool :=
  let order := left.compare? right
  match operator with
  | .equal => .ok (order == some .eq)
  | .notEqual => .ok (order != some .eq)
  | .less => .ok (order == some .lt)
  | .greater => .ok (order == some .gt)
  | .lessEqual => .ok (order == some .lt || order == some .eq)
  | .greaterEqual => .ok (order == some .gt || order == some .eq)
  | _ => .error .illegal

/-- Logic on two numbers, of which every one but zero counts as true. -/
def logic (operator : BinaryOperator) (left right : Number) : Except Fault Bool :=
  match operator with
  | .and => .ok (!left.isZero && !right.isZero)
  | .or => .ok (!left.isZero || !right.isZero)
  | _ => .error .illegal

/-- The operator's own family of operations on numbers. -/
def numbers (operator : BinaryOperator) (left right : Number) : Except Fault Value :=
  match operator with
  | .add | .sub | .mul | .div | .rem | .pow => (scalar operator left right).map .number
  | .equal | .notEqual | .less | .greater | .lessEqual | .greaterEqual =>
    (comparison operator left right).map .ofBool
  | .and | .or => (logic operator left right).map .ofBool

/-- A text joins and compares with texts, and repeats by an integer as far as there is room. -/
def text (memory : Memory) (operator : BinaryOperator) (left : String) (right : Value) :
    Except Fault Value :=
  match operator, right with
  | .add, .text other => .ok (.text (left ++ other))
  | .equal, .text other => .ok (.ofBool (left == other))
  | .notEqual, .text other => .ok (.ofBool (left != other))
  | .mul, .number (.int count) =>
    match Text.repeated? memory left (Numeric.repetitions count) with
    | some repeated => .ok (.text repeated)
    | none => .error .tooLarge
  | _, _ => .error .illegal

/-- The place in a list that an index means. -/
def place (elements : Array Value) (index : Int64) (access : Access) : Except Fault Nat :=
  match Numeric.resolveIndex index elements.size with
  | some offset => .ok offset
  | none => .error (.outOfBounds access)

/--
A list takes any value at its end, loses or answers the element at an integer index, and joins with
a list. The list itself stays as it is.
-/
def list (operator : BinaryOperator) (left : ListId) (right : Value) (store : Store) :
    Except Fault Result :=
  let elements := store.elements left
  match operator, right with
  | .add, value => .ok (.list (elements.push value))
  | .sub, .number (.int index) => do
    let offset ← place elements index .removal
    return .list (elements.eraseIdxIfInBounds offset)
  | .mul, .list other => .ok (.list (elements ++ store.elements other))
  | .div, .number (.int index) => do
    let offset ← place elements index .retrieval
    return .value (elements[offset]?.getD .null)
  | _, _ => .error .illegal

/-- An operator between two values; the left one decides what it means. -/
def binary (memory : Memory) (operator : BinaryOperator) (left right : Value) (store : Store) :
    Except Fault Result :=
  match left, right with
  | .number left, .number right => (numbers operator left right).map .value
  | .text left, right => (text memory operator left right).map .value
  | .list left, right => list operator left right store
  | _, _ => .error .illegal

/-- An operator before a value. -/
def unary (operator : UnaryOperator) (operand : Value) (store : Store) : Except Fault Value :=
  match operator, operand with
  | .negate, .number number => .ok (.number number.negate)
  | .negate, _ => .error .illegal
  | .plus, value => .ok value
  | .not, value => .ok (.ofBool (!store.truth value))

end Operation

end Scriptlet
