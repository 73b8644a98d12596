import Scriptlet.Store

/-! Values as text, in the two forms that programs print and reports show. -/

namespace Scriptlet

namespace Value

/-- Texts are shown between quotes where they stand beside other values. -/
def quote (value : Value) (text : String) : String :=
  match value with
  | .text _ => "\"" ++ text ++ "\""
  | _ => text

end Value

namespace Store

/-- The text of a value whose lists nest at most so deep. -/
def textWithin? (store : Store) : Nat → Value → Option String
  | _, .number number => some number.text
  | _, .text text => some text
  | _, .closure closure => (store.closure? closure).map Closure.text
  | _, .builtin builtin => some builtin.text
  | 0, .list _ => none
  | depth + 1, .list list => do
    let shown ← (store.elements list).toList.mapM fun value =>
      (store.textWithin? depth value).map value.quote
    return "[" ++ String.intercalate ", " shown ++ "]"

/-- The text of a value; a list that contains itself has none. -/
def text? (store : Store) (value : Value) : Option String :=
  -- No chain of lists inside lists is longer than there are lists, unless it comes back.
  store.textWithin? (store.lists.size + 1) value

/-- The text of a value with texts between quotes. -/
def quoted? (store : Store) (value : Value) : Option String :=
  (store.text? value).map value.quote

end Store

end Scriptlet
