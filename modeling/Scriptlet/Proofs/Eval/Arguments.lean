import Scriptlet.Eval

/-!
Arguments of built-in functions. A call sees exactly its arguments and the global variables, and
what it binds to its parameters is what it acts on.
-/

namespace Scriptlet

/-- No two parameters of a built-in function have one name. -/
theorem Builtin.parameters_nodup (function : Builtin) : function.parameters.Nodup := by
  -- One case for each function.
  cases function <;> decide

namespace Eval

variable {function : Builtin} {arguments : List Value} {parameter : String} {value : Value}

/-- The scope of a call shows the argument for each parameter, whatever the store has. -/
theorem lookupFrom_argumentScope (fits : arguments.length = function.parameters.length)
    (given : (parameter, value) ∈ function.parameters.zip arguments) (globals : ScopeId)
    (store : Store) :
    store.lookupFrom (argumentScope globals function arguments) parameter = some value := by
  -- The parameters are distinct, so that no later argument takes the place of an earlier one.
  have distinct : ((function.parameters.zip arguments).map Prod.fst).Nodup := by
    rw [List.map_fst_zip (Nat.le_of_eq fits.symm)]
    exact function.parameters_nodup
  have apart : (function.parameters.zip arguments).Pairwise fun entry other =>
      ¬ compare entry.1 other.1 = .eq := by
    refine (List.pairwise_map.mp distinct).imp fun different same => ?_
    exact different (Std.LawfulEqCmp.eq_of_compare same)
  have bound : (argumentScope globals function arguments).bindings[parameter]? = some value :=
    Std.ExtTreeMap.getElem?_ofList_of_mem Std.ReflCmp.compare_self apart given
  rw [Store.lookupFrom, bound, Option.some_or]

/-- Every other name has there what it has in the global scope. -/
theorem lookupFrom_argumentScope_of_notMem {name : String} (other : name ∉ function.parameters)
    (arguments : List Value) (globals : ScopeId) (store : Store) :
    store.lookupFrom (argumentScope globals function arguments) name =
      store.lookup globals name := by
  have unbound : (argumentScope globals function arguments).bindings[name]? = none := by
    refine Std.ExtTreeMap.getElem?_ofList_of_contains_eq_false ?_
    rw [List.contains_eq_mem, decide_eq_false_iff_not]
    intro member
    obtain ⟨entry, given, rfl⟩ := List.mem_map.mp member
    exact other (List.of_mem_zip given).1
  rw [Store.lookupFrom, unbound]
  rfl

/-- What is read of each of some parameters is read of all of them, one after another. -/
theorem mapM_argument {frame : Frame} {site : Span} {scope : Scope} {parameters : List String}
    {values : List Value} (fits : values.length = parameters.length)
    (given : ∀ entry ∈ parameters.zip values, ∀ store : Store,
      store.lookupFrom scope entry.1 = some entry.2) :
    parameters.mapM (argument frame site scope) = pure values := by
  -- The induction goes along the parameters and the values.
  induction parameters generalizing values with
  | nil =>
    obtain rfl := List.length_eq_zero_iff.mp fits
    rfl
  | cons parameter rest ih =>
    cases values with
    | nil => cases fits
    | cons value others =>
      have read : argument frame site scope parameter = pure value := by
        funext state
        have found := given (parameter, value) List.mem_cons_self state.store
        simp only [argument, Action.bind_apply, Action.look_apply, found]
      rw [List.mapM_cons, read, pure_bind, ih (Nat.succ.inj fits)
        fun entry member => given entry (List.mem_cons_of_mem _ member), pure_bind]

/-- With as many arguments as parameters, a built-in function acts on the arguments. -/
theorem builtin_eq_effect (fits : arguments.length = function.parameters.length)
    (evaluate : Evaluator) (frame : Frame) (site : Span) :
    builtin evaluate frame site function arguments =
      effect evaluate frame site function arguments := by
  have read : function.parameters.mapM
      (argument frame site (argumentScope frame.globals function arguments)) = pure arguments :=
    mapM_argument fits fun _ member => lookupFrom_argumentScope fits member frame.globals
  simp only [builtin, read, pure_bind]

/-- A call with as many arguments as there are parameters is entered. -/
theorem arityError_self (function : String) (count : Nat) :
    arityError function count count = none := by
  simp [arityError]

/-- A call without an error in the number of its arguments has the right number. -/
theorem length_of_arityError {name : String} {expected given : Nat}
    (fits : arityError name expected given = none) : given = expected := by
  unfold arityError at fits
  split at fits
  · cases fits
  · split at fits
    · cases fits
    · omega

/-- A call of a built-in function with the right number of arguments acts on them. -/
theorem callValue_builtin (fits : arguments.length = function.parameters.length)
    (evaluate : Evaluator) (frame : Frame) (site : Span) :
    callValue builtin evaluate frame site (.builtin function) arguments =
      effect evaluate (frame.enter function.name site) site function arguments := by
  simp only [callValue, fits, arityError_self, builtin_eq_effect fits]

/-- A call of a built-in function is refused for the number of its arguments, or acts on them. -/
theorem callValue_builtin_cases (evaluate : Evaluator) (frame : Frame) (site : Span)
    (function : Builtin) (arguments : List Value) :
    (∃ cause, callValue builtin evaluate frame site (.builtin function) arguments =
        Action.fail frame cause site) ∨
      arguments.length = function.parameters.length ∧
        callValue builtin evaluate frame site (.builtin function) arguments =
          effect evaluate (frame.enter function.name site) site function arguments := by
  by_cases fits : arguments.length = function.parameters.length
  · exact .inr ⟨fits, callValue_builtin fits evaluate frame site⟩
  · cases refused : arityError function.text function.parameters.length arguments.length with
    | none => exact absurd (length_of_arityError refused) fits
    | some cause =>
      simp only [callValue, refused]
      exact .inl ⟨cause, rfl⟩

end Eval

end Scriptlet
