import Scriptlet.Proofs.Eval.Functions

/-! Properties of the store that a run keeps: the run is put beside itself. -/

namespace Scriptlet

/-- The state that an outcome leaves behind, unless it was cut off. -/
def Outcome.after? {ε α : Type} : Outcome ε α → Option State
  | .value _ state | .exit _ state => some state
  | .unfinished => none

/-- What leaves a state behind is not cut off. -/
theorem Outcome.ne_of_after? {ε α : Type} {outcome : Outcome ε α} {after : State}
    (ended : outcome.after? = some after) : outcome ≠ .unfinished := by
  rintro rfl
  cases ended

/-- A step leaves the same state behind in whatever terms its early exits are told. -/
theorem Action.after?_mapExit {ε ε' α : Type} (told : ε → ε') (step : Action ε α) (state : State) :
    (step.mapExit told state).after? = (step state).after? := by
  unfold Action.mapExit
  cases step state <;> rfl

/-- The end of a function or of a program leaves the state of its body behind. -/
theorem Action.after?_settle (frame : Frame) (body : Action Exit Value) (state : State) :
    (Action.settle frame body state).after? = (body state).after? := by
  unfold Action.settle
  cases body state with
  | value | unfinished => rfl
  | exit cause after => cases cause <;> rfl

/-- A round of a loop leaves the state of its body behind. -/
theorem Action.after?_round (body : Action Exit Value) (state : State) :
    (Action.round body state).after? = (body state).after? := by
  unfold Action.round
  cases body state with
  | value | unfinished => rfl
  | exit cause after => cases cause <;> rfl

/-- Two steps in a row leave behind what the second one does, or what the first one does. -/
theorem Action.after?_bind {ε α β : Type} {first : Action ε α} {next : α → Action ε β}
    {state after : State} (ended : ((first >>= next) state).after? = some after) :
    (first state).after? = some after ∨ ∃ result middle,
      first state = .value result middle ∧ (next result middle).after? = some after := by
  rw [Action.bind_apply] at ended
  cases did : first state with
  | value result middle =>
    rw [did] at ended
    exact .inr ⟨result, middle, rfl, ended⟩
  | exit cause middle =>
    rw [did] at ended
    exact .inl ended
  | unfinished =>
    rw [did] at ended
    cases ended

/--
A property of stores that outlives new lists, functions and scopes, and the definition of permitted
variables; in a new scope every variable is permitted.
-/
structure Store.Invariant (holds : Store → Prop) (permits : ScopeId → String → Prop) : Prop where
  define {store : Store} {scope : ScopeId} {name : String} (value : Value) (held : holds store)
    (permitted : permits scope name) : holds (store.define scope name value)
  addList {store : Store} (elements : Array Value) (held : holds store) :
    holds (store.addList elements).2
  addClosure {store : Store} (closure : Closure) (held : holds store) :
    holds (store.addClosure closure).2
  enclose {store : Store} (scope : ScopeId) (held : holds store) :
    holds (store.enclose scope).2 ∧ ∀ name, permits (store.enclose scope).1 name

/-- Nothing at all is required of a store, and every variable is permitted. -/
theorem Store.Invariant.always : Store.Invariant (fun _ => True) fun _ _ => True where
  define := fun _ _ _ => trivial
  addList := fun _ _ => trivial
  addClosure := fun _ _ => trivial
  enclose := fun _ _ => ⟨trivial, fun _ => trivial⟩

/-- Chains of calls at the same places are equal when similar chains at their roots are. -/
theorem CallChain.Similar.eq {roots : CallChain → CallChain → Prop}
    (same : ∀ chain chain', roots chain chain' → chain = chain') {chain chain' : CallChain}
    (alike : chain.Similar (· = ·) roots chain') : chain = chain' := by
  -- The induction goes from the root to the innermost call.
  induction alike with
  | root alike => exact same _ _ alike
  | call places callers ih => rw [places, ih]

/-- The chains of programs that have made no call are equal. -/
theorem CallChain.Programs.eq {chain chain' : CallChain} (programs : CallChain.Programs chain chain') :
    chain = chain' :=
  programs.1.trans programs.2.symm

/-- Similar causes with the same places are equal. -/
theorem EvalError.Cause.Similar.eq {cause cause' : EvalError.Cause}
    (alike : cause.Similar (· = ·) cause') : cause = cause' := by
  -- The errors of failed scripts, and with them the reports, are equal.
  induction alike with
  | same cause => rfl
  | scriptFailed causes places chains ih =>
    rw [ih, places, chains.eq fun _ _ => CallChain.Programs.eq]

/-- Similar errors with the same places are equal when similar chains at their roots are. -/
theorem EvalError.Similar.eq {roots : CallChain → CallChain → Prop} {error error' : EvalError}
    (same : ∀ chain chain', roots chain chain' → chain = chain')
    (alike : error.Similar (· = ·) roots error') : error = error' := by
  -- An error is its cause, its place and its chain.
  obtain ⟨cause, span, chain⟩ := error
  obtain ⟨cause', span', chain'⟩ := error'
  obtain ⟨causes, rfl, chains⟩ := alike
  obtain rfl := EvalError.Cause.Similar.eq causes
  obtain rfl := chains.eq same
  rfl

namespace Coupling

/-- A run beside itself, as long as a property of its store holds. -/
def diagonal (holds : Store → Prop) (permits : ScopeId → String → Prop) (lax : Prop) :
    Coupling where
  World := Unit
  grows := fun _ _ => True
  spans := (· = ·)
  scopes := fun _ => (· = ·)
  lists := fun _ => (· = ·)
  closures := fun _ => (· = ·)
  stores := fun _ store store' => store = store' ∧ holds store
  permits := permits
  lax := lax

variable {holds : Store → Prop} {permits : ScopeId → String → Prop} {lax : Prop} {world : Unit}

/-- On the diagonal only equal values correspond. -/
theorem diagonal_values {value value' : Value}
    (alike : (diagonal holds permits lax).Values world value value') : value = value' := by
  -- Places correspond when they are equal.
  cases alike with
  | number number => rfl
  | text text => rfl
  | list places => exact congrArg Value.list places
  | closure places => exact congrArg Value.closure places
  | builtin builtin => rfl

/-- On the diagonal every value corresponds to itself. -/
theorem diagonal_values_refl (value : Value) :
    (diagonal holds permits lax).Values world value value := by
  -- Every place is equal to itself.
  cases value with
  | number number => exact .number number
  | text text => exact .text text
  | list list => exact .list rfl
  | closure closure => exact .closure rfl
  | builtin builtin => exact .builtin builtin

/-- On the diagonal only equal rows correspond. -/
theorem diagonal_rows {elements elements' : Array Value}
    (alike : (diagonal holds permits lax).Rows world elements.toList elements'.toList) :
    elements = elements' := by
  -- Rows of equal values are equal.
  have same := alike.imp fun _ _ values => diagonal_values values
  rw [List.forall₂_eq_eq_eq] at same
  exact Array.toList_inj.mp same

/-- On the diagonal every row corresponds to itself. -/
theorem diagonal_rows_refl (row : List Value) : (diagonal holds permits lax).Rows world row row :=
  List.forall₂_same.mpr fun value _ => diagonal_values_refl value

/-- On the diagonal only equal functions correspond. -/
theorem diagonal_functions {closure closure' : Closure}
    (alike : (diagonal holds permits lax).Functions world closure closure') :
    closure = closure' := by
  -- Bodies that are built alike at the same places are equal.
  obtain ⟨name, parameters, body, form, scope⟩ := closure
  obtain ⟨_, _, body', _, _⟩ := closure'
  obtain ⟨rfl, rfl, rfl, bodies, rfl⟩ := alike
  obtain rfl := Node.Similar.eq body body' bodies
  rfl

/-- On the diagonal every function corresponds to itself. -/
theorem diagonal_functions_refl (closure : Closure) :
    (diagonal holds permits lax).Functions world closure closure :=
  ⟨rfl, rfl, rfl, Node.Similar.refl (fun _ => rfl) closure.body, rfl⟩

/-- The diagonal of an invariant is lawful. -/
theorem diagonal_lawful (invariant : Store.Invariant holds permits) :
    (diagonal holds permits lax).Lawful where
  -- Both runs are the same run, so only what the invariant has to keep is not by reflexivity.
  grows_refl := fun _ => trivial
  grows_trans := fun _ _ => trivial
  spans_refl := fun _ => rfl
  scopes_mono := fun _ places => places
  lists_mono := fun _ places => places
  closures_mono := fun _ places => places
  elements := by
    rintro _ store _ list _ ⟨rfl, held⟩ rfl
    exact diagonal_rows_refl _
  text := by
    rintro _ store _ value _ ⟨rfl, held⟩ alike
    rw [diagonal_values alike]
  closure? := by
    rintro _ store _ closure _ ⟨rfl, held⟩ rfl
    cases store.closure? closure with
    | none => exact .none
    | some found => exact .some (diagonal_functions_refl found)
  function := fun _ _ _ _ _ => trivial
  lookup := by
    rintro _ store _ scope _ name _ ⟨rfl, held⟩ rfl
    cases store.lookup scope name with
    | none => exact .none
    | some found => exact .some (diagonal_values_refl found)
  define := by
    rintro _ store _ scope _ name value _ ⟨rfl, held⟩ rfl permitted alike
    obtain rfl := diagonal_values alike
    exact ⟨rfl, invariant.define value held permitted⟩
  addList := by
    rintro world store _ elements _ ⟨rfl, held⟩ alike
    obtain rfl := diagonal_rows alike
    exact ⟨world, trivial, rfl, rfl, invariant.addList elements held⟩
  addClosure := by
    rintro world store _ closure _ ⟨rfl, held⟩ alike _
    obtain rfl := diagonal_functions alike
    exact ⟨world, trivial, rfl, rfl, invariant.addClosure closure held⟩
  enclose := by
    rintro world store _ scope _ ⟨rfl, held⟩ rfl
    obtain ⟨enclosed, permitted⟩ := invariant.enclose scope held
    exact ⟨world, trivial, rfl, ⟨rfl, enclosed⟩, permitted⟩
  hosts_eq := fun same => same
  hosts_after := fun _ _ => rfl
  script := fun _ _ _ _ _ => trivial

/-- The diagonal of a property that outlives changes of lists allows them. -/
theorem diagonal_allowsChanges
    (changed : ∀ store list change, holds store → holds (store.modifyList list change)) :
    (diagonal holds permits lax).AllowsChanges := by
  -- Changes that keep all rows in correspondence are equal.
  rintro world store _ list _ change change' ⟨rfl, held⟩ rfl changes
  have same : change = change' :=
    funext fun elements => diagonal_rows (changes elements elements (diagonal_rows_refl _))
  rw [same]
  exact ⟨rfl, changed store list change' held⟩

/-- On the diagonal every frame corresponds to itself. -/
theorem diagonal_frames (frame : Frame) :
    (diagonal holds permits lax).Frames world (· = ·) frame frame :=
  ⟨rfl, rfl, .root rfl⟩

/-- On the diagonal only equal exits correspond. -/
theorem diagonal_exits {exit exit' : Exit}
    (alike : (diagonal holds permits lax).Exits (· = ·) world exit exit') : exit = exit' := by
  -- Errors, returned values and places are equal.
  cases alike with
  | failed alike => exact congrArg Exit.failed (alike.eq fun _ _ same => same)
  | returned alike => exact congrArg Exit.returned (diagonal_values alike)
  | broke places => exact congrArg Exit.broke places
  | continued places => exact congrArg Exit.continued places

/-- On the diagonal only equal states correspond. -/
theorem diagonal_states {state state' : State}
    (states : (diagonal holds permits lax).States world state state') : state = state' := by
  -- A state is a store beside a host.
  obtain ⟨store, host⟩ := state
  obtain ⟨store', host'⟩ := state'
  obtain ⟨⟨rfl, _⟩, rfl⟩ := states
  rfl

/-- On the diagonal evaluations end in the same way, unless the first of them was cut off. -/
theorem diagonal_outcomes {outcome outcome' : Outcome Exit Value}
    (alike : (diagonal holds permits lax).Outcomes world
      ((diagonal holds permits lax).Exits (· = ·)) (diagonal holds permits lax).Values outcome
      outcome')
    (finished : lax → outcome ≠ .unfinished) : outcome = outcome' := by
  -- Corresponding states are equal, as values and exits are.
  cases alike with
  | value grown same states => rw [diagonal_values same, diagonal_states states]
  | exit grown same states => rw [diagonal_exits same, diagonal_states states]
  | unfinished => rfl
  | cut lax => exact absurd rfl (finished lax)

/-- What alike steps on the diagonal leave behind, unless the first of them was cut off. -/
theorem diagonal_after {ε ε' α α' : Type}
    {exits : (diagonal holds permits lax).World → ε → ε' → Prop}
    {results : (diagonal holds permits lax).World → α → α' → Prop}
    {outcome : Outcome ε α} {outcome' : Outcome ε' α'} {after : State}
    (alike : (diagonal holds permits lax).Outcomes world exits results outcome outcome')
    (finished : lax → outcome ≠ .unfinished) (ended : outcome'.after? = some after) :
    holds after.store := by
  -- Values and early exits come with states that correspond, so that the property holds.
  cases alike with
  | value grown same states =>
    obtain rfl : _ = after := Option.some.inj ended
    exact states.stores.1 ▸ states.stores.2
  | exit grown same states =>
    obtain rfl : _ = after := Option.some.inj ended
    exact states.stores.1 ▸ states.stores.2
  | unfinished => exact nomatch ended
  | cut lax => exact absurd rfl (finished lax)

end Coupling

variable {holds : Store → Prop} {permits : ScopeId → String → Prop}

/-- An invariant that outlives changes of lists holds after the evaluation of every construct. -/
theorem Store.Invariant.evaluate {reach : Nat} {node : Node} {frame : Frame} {state after : State}
    (invariant : Store.Invariant holds permits)
    (changed : ∀ store list change, holds store → holds (store.modifyList list change))
    (permitted : ∀ name ∈ node.targets, permits frame.scope name) (held : holds state.store)
    (ended : (evaluate reach node frame state).after? = some after) : holds after.store := by
  -- The evaluation is put beside itself.
  have lawful : (Coupling.diagonal holds permits False).Lawful :=
    Coupling.diagonal_lawful invariant
  have libraries := lawful.builtins (Coupling.diagonal_allowsChanges changed)
  have alike := lawful.evaluateWith libraries reach () _ node node frame frame
    (Node.Similar.refl lawful.spans_refl node) (Coupling.diagonal_frames frame) permitted
    fun _ _ => trivial
  have outcomes := alike () trivial state state ⟨⟨rfl, held⟩, rfl⟩
  exact Coupling.diagonal_after outcomes False.elim ended

/-- An invariant that outlives changes of lists holds after a call of any value. -/
theorem Store.Invariant.callValue {reach : Nat} {frame : Frame} {site : Span} {callee : Value}
    {arguments : List Value} {state after : State}
    (invariant : Store.Invariant holds permits)
    (changed : ∀ store list change, holds store → holds (store.modifyList list change))
    (held : holds state.store)
    (ended : (Eval.callValue Eval.builtin (Scriptlet.evaluate reach) frame site callee arguments
      state).after? = some after) : holds after.store := by
  -- The call is put beside itself; its body may bind everything, since its scope is new.
  have lawful : (Coupling.diagonal holds permits False).Lawful :=
    Coupling.diagonal_lawful invariant
  have libraries := lawful.builtins (Coupling.diagonal_allowsChanges changed)
  have evaluators := lawful.evaluateWith libraries reach
  have frames : (Coupling.diagonal holds permits False).Frames () (· = ·) frame frame :=
    Coupling.diagonal_frames frame
  have alike := evaluators.callValue lawful libraries frames (lawful.spans_refl site)
    (Coupling.diagonal_values_refl callee) (Coupling.diagonal_rows_refl arguments)
  have outcomes := alike () trivial state state ⟨⟨rfl, held⟩, rfl⟩
  exact Coupling.diagonal_after outcomes False.elim ended

/-- Every invariant holds after the evaluation of a construct that spares lists. -/
theorem Store.Invariant.spared {reach : Nat} {node : Node} {frame : Frame} {state after : State}
    (invariant : Store.Invariant holds permits)
    (permitted : ∀ name ∈ node.targets, permits frame.scope name) (held : holds state.store)
    (spared : evaluateWith Eval.sparing reach node frame state ≠ .unfinished)
    (ended : (Scriptlet.evaluate reach node frame state).after? = some after) :
    holds after.store := by
  -- The evaluation is put beside the one that is cut off where a list would change.
  have lawful : (Coupling.diagonal holds permits True).Lawful :=
    Coupling.diagonal_lawful invariant
  have libraries := lawful.sparing trivial
  have alike := lawful.evaluateWith libraries reach () _ node node frame frame
    (Node.Similar.refl lawful.spans_refl node) (Coupling.diagonal_frames frame) permitted
    fun _ _ => trivial
  have outcomes := alike () trivial state state ⟨⟨rfl, held⟩, rfl⟩
  exact Coupling.diagonal_after outcomes (fun _ => spared) ended

end Scriptlet
