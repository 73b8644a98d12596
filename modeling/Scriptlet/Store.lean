import Scriptlet.Syntax.Node
import Scriptlet.Value
import Std.Data.ExtTreeMap

/-!
The store: every scope, list and function that a program has made. Nothing is ever taken away, so a
place in the store keeps its meaning.
-/

namespace Scriptlet

/-- The values of variables by name. -/
abbrev Bindings := Std.ExtTreeMap String Value

/-- A scope has its own variables, and perhaps a parent: the scope directly around it. -/
structure Scope where
  parent : Option ScopeId
  bindings : Bindings

instance : Inhabited Scope := ⟨{ parent := none, bindings := {} }⟩

/-- A function with the scope that it was made in. -/
structure Closure where
  name : Option String
  parameters : List String
  body : Node
  form : BodyForm
  scope : ScopeId

/-- The name of a function in reports and displays. -/
def Closure.label (closure : Closure) : String :=
  closure.name.getD "<anonymous>"

/-- A function as displays and reports show it. -/
def Closure.text (closure : Closure) : String :=
  "<function " ++ closure.label ++ ">"

/-- Everything that programs have made so far. -/
structure Store where
  scopes : Array Scope
  lists : Array (Array Value)
  closures : Array Closure

namespace Store

/-- The store before any program has run. -/
def empty : Store := { scopes := #[], lists := #[], closures := #[] }

instance : Inhabited Store := ⟨empty⟩

/-- The scope directly around another one. -/
def parent? (store : Store) (scope : ScopeId) : Option ScopeId :=
  store.scopes[scope.index]?.bind Scope.parent

/--
A scope, and the scopes around it from the inside out. Scopes are made inside of older ones, so the
walk from parent to parent ends; it would not follow a link to any other scope.
-/
def chain (store : Store) (scope : ScopeId) : List ScopeId :=
  match store.parent? scope with
  | none => [scope]
  | some around =>
    if around.index < scope.index then scope :: store.chain around else [scope]
termination_by scope.index

/-- The value of a variable in one scope. -/
def binding? (store : Store) (scope : ScopeId) (name : String) : Option Value :=
  store.scopes[scope.index]?.bind fun found => found.bindings[name]?

/-- The value of a variable in the nearest scope that has it. -/
def lookup (store : Store) (scope : ScopeId) (name : String) : Option Value :=
  (store.chain scope).findSome? fun id => store.binding? id name

/-- The value of a variable in a scope that is not kept, or in the nearest scope around that. -/
def lookupFrom (store : Store) (scope : Scope) (name : String) : Option Value :=
  scope.bindings[name]?.or (scope.parent.bind fun around => store.lookup around name)

/-- Gives a variable of a scope a value, whether it had one or not. -/
def define (scope : ScopeId) (name : String) (value : Value) (store : Store) : Store :=
  { store with
    scopes := store.scopes.modify scope.index fun found =>
      { found with bindings := found.bindings.insert name value } }

/-- A new scope with no variables, inside another one or on its own. -/
def addScope (parent : Option ScopeId) (store : Store) : ScopeId × Store :=
  (⟨store.scopes.size⟩, { store with scopes := store.scopes.push { parent, bindings := {} } })

/-- A new scope directly inside another. -/
def enclose (scope : ScopeId) (store : Store) : ScopeId × Store :=
  store.addScope (some scope)

/-- The elements of a list. -/
def elements (store : Store) (list : ListId) : Array Value :=
  store.lists[list.index]?.getD #[]

/-- A new list of the given elements. -/
def addList (elements : Array Value) (store : Store) : ListId × Store :=
  (⟨store.lists.size⟩, { store with lists := store.lists.push elements })

/-- Changes the elements of a list. -/
def modifyList (list : ListId) (change : Array Value → Array Value) (store : Store) : Store :=
  { store with lists := store.lists.modify list.index change }

/-- A function by its place. -/
def closure? (store : Store) (closure : ClosureId) : Option Closure :=
  store.closures[closure.index]?

/-- A new function. -/
def addClosure (closure : Closure) (store : Store) : ClosureId × Store :=
  (⟨store.closures.size⟩, { store with closures := store.closures.push closure })

/-- The same value, or for a list a new list of the same elements: copies go one level deep. -/
def copy (value : Value) (store : Store) : Value × Store :=
  match value with
  | .list list =>
    let (fresh, store) := store.addList (store.elements list)
    (.list fresh, store)
  | other => (other, store)

/-- Numbers but zero, texts and lists but empty ones, and all functions count as true. -/
def truth (store : Store) : Value → Bool
  | .number number => !number.isZero
  | .text text => text.utf8ByteSize != 0
  | .list list => !(store.elements list).isEmpty
  | .closure _ | .builtin _ => true

/-- The ratio of a circle's circumference to its diameter. -/
def pi : Float := Float.ofBits 0x400921FB54442D18

/-- The variables that every program finds defined. -/
def initialVariables : List (String × Value) :=
  [("NULL", .null), ("FALSE", .ofBool false), ("TRUE", .ofBool true),
    ("MATH_PI", .number (.float pi))] ++
  Builtin.all.flatMap fun builtin => builtin.globalNames.map fun name => (name, .builtin builtin)

/-- A new global scope, with the variables that every program finds defined. -/
def addGlobals (store : Store) : ScopeId × Store :=
  let (globals, store) := store.addScope none
  (globals,
    initialVariables.foldl (fun store (name, value) => store.define globals name value) store)

end Store

end Scriptlet
