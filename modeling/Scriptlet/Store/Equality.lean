import Scriptlet.Store

/-! When two values of a store are equal. -/

namespace Scriptlet.Store

/--
Numbers are equal by value, texts by their characters, functions only to themselves, and lists when
they are one list or their elements are equal in order, as deep as the given bound.
-/
def sameWithin (store : Store) : Nat → Value → Value → Bool
  | _, .number left, .number right => left.same right
  | _, .text left, .text right => left == right
  | _, .closure left, .closure right => left == right
  | _, .builtin left, .builtin right => left == right
  | 0, .list left, .list right => left == right
  | depth + 1, .list left, .list right =>
    left == right ||
      ((store.elements left).size == (store.elements right).size &&
        ((store.elements left).toList.zip (store.elements right).toList).all fun (x, y) =>
          store.sameWithin depth x y)
  | _, _, _ => false

/-- Equality down to the bottom of every value that does not contain itself. -/
def same (store : Store) (left right : Value) : Bool :=
  store.sameWithin (store.lists.size + 1) left right

end Scriptlet.Store
