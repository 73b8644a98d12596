import Scriptlet.Number

/-! Values: what programs compute with. The store keeps lists and functions, known by place. -/

namespace Scriptlet

/-- The place of a scope in the store. -/
structure ScopeId where
  index : Nat
deriving DecidableEq, Repr, Inhabited

/-- The place of a list in the store. -/
structure ListId where
  index : Nat
deriving DecidableEq, Repr, Inhabited

/-- The place of a function in the store. -/
structure ClosureId where
  index : Nat
deriving DecidableEq, Repr, Inhabited

/-- The functions that every program finds defined. -/
inductive Builtin where
  | print | printRet | input | inputInt | clear
  | isNumber | isText | isList | isFunction
  | append | pop | extend | length | run
deriving DecidableEq, Repr

namespace Builtin

/-- Every built-in function, once. -/
def all : List Builtin :=
  [.print, .printRet, .input, .inputInt, .clear, .isNumber, .isText, .isList, .isFunction,
   .append, .pop, .extend, .length, .run]

/-- The name that reports and displays give a built-in function. -/
def name : Builtin → String
  | .print => "print"
  | .printRet => "print_ret"
  | .input => "input"
  | .inputInt => "input_int"
  | .clear => "clear"
  | .isNumber => "is_number"
  | .isText => "is_string"
  | .isList => "is_list"
  | .isFunction => "is_function"
  | .append => "append"
  | .pop => "pop"
  | .extend => "extend"
  | .length => "len"
  | .run => "run"

/-- A built-in function as displays and reports show it. -/
def text (builtin : Builtin) : String :=
  "<built-in function " ++ builtin.name ++ ">"

/-- The global variables that hold a built-in function at first. -/
def globalNames : Builtin → List String
  | .print => ["PRINT"]
  | .printRet => ["PRINT_RET"]
  | .input => ["INPUT"]
  | .inputInt => ["INPUT_INT"]
  | .clear => ["CLEAR", "CLS"]
  | .isNumber => ["IS_NUM"]
  | .isText => ["IS_STR"]
  | .isList => ["IS_LIST"]
  | .isFunction => ["IS_FUN"]
  | .append => ["APPEND"]
  | .pop => ["POP"]
  | .extend => ["EXTEND"]
  | .length => ["LEN"]
  | .run => ["RUN"]

/-- The parameters of a built-in function; it takes exactly so many arguments. -/
def parameters : Builtin → List String
  | .input | .inputInt | .clear => []
  | .print | .printRet | .isNumber | .isText | .isList | .isFunction => ["value"]
  | .append => ["list", "value"]
  | .pop => ["list", "index"]
  | .extend => ["listA", "listB"]
  | .length => ["list"]
  | .run => ["fn"]

/-- The list of all built-in functions leaves none out. -/
theorem mem_all (builtin : Builtin) : builtin ∈ all := by
  -- One case for each function.
  cases builtin <;> decide

end Builtin

/-- A value of the language. -/
inductive Value where
  | number (number : Number)
  | text (text : String)
  | list (list : ListId)
  | closure (closure : ClosureId)
  | builtin (builtin : Builtin)
deriving DecidableEq

namespace Value

/-- The integer zero stands for the absence of a value. -/
def null : Value := .number (.int 0)

instance : Inhabited Value := ⟨null⟩

/-- The integer one for a true condition, and the integer zero for a false one. -/
def ofBool (condition : Bool) : Value := .number (.ofBool condition)

end Value

end Scriptlet
