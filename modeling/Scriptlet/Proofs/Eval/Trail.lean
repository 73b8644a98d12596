import Scriptlet.Proofs.Eval.InPlace
import Scriptlet.Proofs.Eval.Waypoint
import Scriptlet.Proofs.Store.Ancestry

/-!
Moments of a run one after another: a run that is stopped at the first of them is put beside the
same run that is stopped later. Scopes are made inside of scopes that are there, all the time up to
the first moment and from there on.
-/

namespace Scriptlet

/-- The early exits that neither loops nor functions take. -/
def Exit.Fails : Exit → Prop
  | .failed _ => True
  | _ => False

/--
What has come of a step that may be stopped, beside the same step that may be stopped later: both
have ended alike, or the first one was stopped, and the second one has gone on from there.
-/
inductive Outcome.Trails {ε α : Type} (fails : ε → Prop) (start : Store) :
    Outcome ε α → Outcome ε α → Prop where
  | value (result : α) {state : State} (leads : start.Leads state.store) :
    Outcome.Trails fails start (.value result state) (.value result state)
  | exit (cause : ε) {state : State} (leads : start.Leads state.store) :
    Outcome.Trails fails start (.exit cause state) (.exit cause state)
  | unfinished : Outcome.Trails fails start .unfinished .unfinished
  | stopped {cause : ε} {state : State} {outcome : Outcome ε α} (failed : fails cause)
    (leads : start.Leads state.store)
    (goesOn : ∀ last, outcome.after? = some last → state.store.Leads last.store) :
    Outcome.Trails fails start (.exit cause state) outcome

/-- What the first step leaves behind has become of what there was when it began. -/
theorem Outcome.Trails.before {ε α : Type} {fails : ε → Prop} {start : Store}
    {outcome outcome' : Outcome ε α} {middle : State} (trails : outcome.Trails fails start outcome')
    (ended : outcome.after? = some middle) : start.Leads middle.store := by
  cases trails with
  | value result leads => exact Option.some.inj ended ▸ leads
  | exit cause leads => exact Option.some.inj ended ▸ leads
  | unfinished => cases ended
  | stopped failed leads goesOn => exact Option.some.inj ended ▸ leads

/-- What the second step leaves behind has become of what there was when it began. -/
theorem Outcome.Trails.leads {ε α : Type} {fails : ε → Prop} {start : Store}
    {outcome outcome' : Outcome ε α} {last : State} (trails : outcome.Trails fails start outcome')
    (ended : outcome'.after? = some last) : start.Leads last.store := by
  cases trails with
  | value result leads => exact Option.some.inj ended ▸ leads
  | exit cause leads => exact Option.some.inj ended ▸ leads
  | unfinished => cases ended
  | stopped failed leads goesOn => exact leads.trans (goesOn last ended)

/-- Of two moments of a run, the later one has become of the first one. -/
theorem Outcome.Trails.further {ε α : Type} {fails : ε → Prop} {start : Store}
    {outcome outcome' : Outcome ε α} {middle last : State}
    (trails : outcome.Trails fails start outcome') (ended : outcome.after? = some middle)
    (ended' : outcome'.after? = some last) : middle.store.Leads last.store := by
  cases trails with
  | value result leads =>
    rw [ended] at ended'
    exact Option.some.inj ended' ▸ .refl
  | exit cause leads =>
    rw [ended] at ended'
    exact Option.some.inj ended' ▸ .refl
  | unfinished => cases ended
  | stopped failed leads goesOn => exact Option.some.inj ended ▸ goesOn last ended'

/-- What has come of a step that began with a store has come of an earlier one. -/
theorem Outcome.Trails.earlier {ε α : Type} {fails : ε → Prop} {start middle : Store}
    {outcome outcome' : Outcome ε α} (before : start.Leads middle)
    (trails : outcome.Trails fails middle outcome') : outcome.Trails fails start outcome' := by
  -- What has become of the later store has become of the earlier one.
  cases trails with
  | value result leads => exact .value result (before.trans leads)
  | exit cause leads => exact .exit cause (before.trans leads)
  | unfinished => exact .unfinished
  | stopped failed leads goesOn => exact .stopped failed (before.trans leads) goesOn

/-- A step that may be stopped, and one that may be stopped later, on what a store has become. -/
def Action.Trail {ε α : Type} (fails : ε → Prop) (base : Store) (step step' : Action ε α) : Prop :=
  ∀ state, base.Leads state.store → (step state).Trails fails state.store (step' state)

/-- A frame whose scopes are there, among scopes that are nested. -/
structure Frame.Stands (frame : Frame) (store : Store) (globals : ScopeId) : Prop where
  nested : store.Nested globals
  scope : store.Has frame.scope
  program : store.Has frame.program

namespace Frame.Stands

variable {frame : Frame} {store later : Store} {globals : ScopeId}

/-- A frame stands on what becomes of a store. -/
theorem mono (stands : frame.Stands store globals) (leads : store.Leads later) :
    frame.Stands later globals :=
  ⟨leads.nested stands.nested, leads.has stands.scope, leads.has stands.program⟩

/-- The frame of a program in a scope that is there. -/
theorem ofProgram {scope : ScopeId} (nested : store.Nested globals) (has : store.Has scope)
    (root : ScopeId) : (Frame.ofProgram root scope).Stands store globals :=
  ⟨nested, has, has⟩

end Frame.Stands

/-- An evaluator that may be stopped beside one that may be stopped later. -/
def Trailing (globals : ScopeId) (evaluate evaluate' : Evaluator) : Prop :=
  ∀ {base : Store} {frame : Frame}, frame.Stands base globals → ∀ node,
    Action.Trail Exit.Fails base (evaluate node frame) (evaluate' node frame)

namespace Action.Trail

variable {ε α β : Type} {fails : ε → Prop} {base : Store} {step step' : Action ε α}

/-- A step that leaves the store as it is. -/
theorem of_keepsStore (keeps : Eval.KeepsStore step) : Action.Trail fails base step step := by
  -- Both runs end alike, with the store that they began with.
  intro state from_
  have same := keeps state
  generalize step state = outcome at same ⊢
  cases outcome with
  | value result after => exact .value result (same after rfl ▸ .refl)
  | exit cause after => exact .exit cause (same after rfl ▸ .refl)
  | unfinished => exact .unfinished

/-- A result by itself. -/
theorem pure (result : α) : Action.Trail fails base (pure result) (pure result) :=
  of_keepsStore (.pure result)

/-- An early exit. -/
theorem leave (cause : ε) :
    Action.Trail fails base (Action.leave cause : Action ε α) (Action.leave cause) :=
  of_keepsStore (.leave cause)

/-- A step that is cut off. -/
theorem cutOff : Action.Trail fails base (Action.cutOff : Action ε α) Action.cutOff :=
  fun _ _ => .unfinished

/-- A change of the store. -/
theorem change {update : Store → Store}
    (updates : ∀ store, base.Leads store → store.Leads (update store)) :
    Action.Trail fails base (Action.change update) (Action.change update) :=
  fun state from_ => .value () (updates state.store from_)

/-- An addition to the store. -/
theorem make {update : Store → α × Store}
    (updates : ∀ store, base.Leads store → store.Leads (update store).2) :
    Action.Trail fails base (Action.make update) (Action.make update) :=
  fun state from_ => .value _ (updates state.store from_)

/-- Two steps in a row. -/
theorem bind {next next' : α → Action ε β} (first : Action.Trail fails base step step')
    (nexts : ∀ result, Action.Trail fails base (next result) (next' result)) :
    Action.Trail fails base (step >>= next) (step' >>= next') := by
  intro state from_
  have trails := first state from_
  rw [Action.bind_apply, Action.bind_apply]
  generalize step state = outcome, step' state = outcome' at trails ⊢
  cases trails with
  | @value result middle leads =>
    -- The second steps begin where the first ones have ended alike.
    exact (nexts result middle (from_.trans leads)).earlier leads
  | exit cause leads => exact .exit cause leads
  | unfinished => exact .unfinished
  | stopped failed leads goesOn =>
    -- The second run goes on from where the first one was stopped, perhaps into the second step.
    refine .stopped failed leads fun last ended => ?_
    cases outcome' with
    | value result middle =>
      have leads' := goesOn middle rfl
      exact leads'.trans ((nexts result middle (from_.trans (leads.trans leads'))).leads ended)
    | exit cause middle => exact goesOn last ended
    | unfinished => cases ended

/-- A look at the store, and what is done by what it shows. -/
theorem look_bind {view : Store → α} {next next' : α → Action ε β}
    (nexts : ∀ store, base.Leads store →
      Action.Trail fails store (next (view store)) (next' (view store))) :
    Action.Trail fails base (Action.look view >>= next) (Action.look view >>= next') :=
  fun state from_ => nexts state.store from_ state .refl

/-- A look at the store. -/
theorem look (view : Store → α) :
    Action.Trail fails base (Action.look view : Action ε α) (Action.look view) :=
  of_keepsStore (.look view)

/-- A question for the room that there is. -/
theorem memory :
    Action.Trail fails base (Action.memory : Action ε Memory) Action.memory :=
  of_keepsStore .memory

/-- A new scope inside of one that is there, and what is done in it. -/
theorem enclose_bind {scope : ScopeId} {next next' : ScopeId → Action ε β} (has : base.Has scope)
    (nexts : ∀ inner store, base.Leads store → store.Has inner →
      Action.Trail fails store (next inner) (next' inner)) :
    Action.Trail fails base (Action.make (Store.enclose scope) >>= next)
      (Action.make (Store.enclose scope) >>= next') := by
  -- The store with the new scope is what has become of the one before.
  intro state from_
  have leads : state.store.Leads (state.store.enclose scope).2 :=
    .single (.enclose (from_.has has))
  have there : (state.store.enclose scope).2.Has (state.store.enclose scope).1 :=
    Store.has_enclose.mpr (.inl rfl)
  exact (nexts _ _ (from_.trans leads) there ⟨_, state.host⟩ .refl).earlier leads

/-- A step whose early exits are told in other terms. -/
theorem mapExit {ε' : Type} {fails' : ε' → Prop} {told : ε → ε'}
    (trail : Action.Trail fails base step step')
    (tells : ∀ cause, fails cause → fails' (told cause)) :
    Action.Trail fails' base (step.mapExit told) (step'.mapExit told) := by
  -- The states that are left behind are the same.
  intro state from_
  have trails := trail state from_
  have same := Action.after?_mapExit told step' state
  unfold Action.mapExit at same ⊢
  generalize step state = outcome, step' state = outcome' at trails same ⊢
  cases trails with
  | value result leads => exact .value result leads
  | exit cause leads => exact .exit _ leads
  | unfinished => exact .unfinished
  | stopped failed leads goesOn =>
    exact .stopped (tells _ failed) leads fun last ended => goesOn last (same ▸ ended)

/-- A step that can only fail, as a step of an evaluation. -/
theorem lift {step step' : Action EvalError α}
    (trail : Action.Trail (fun _ => True) base step step') :
    Action.Trail Exit.Fails base (liftM step : Action Exit α) (liftM step') :=
  mapExit trail fun _ _ => trivial

/-- A failure. -/
theorem fail (frame : Frame) (cause : EvalError.Cause) (span : Span) :
    Action.Trail (fun _ => True) base (Action.fail frame cause span : Action EvalError α)
      (Action.fail frame cause span) :=
  leave _

/-- The end of a function or of a program. -/
theorem settle {step step' : Action Exit Value} (frame : Frame)
    (trail : Action.Trail Exit.Fails base step step') :
    Action.Trail (fun _ => True) base (Action.settle frame step) (Action.settle frame step') := by
  intro state from_
  have trails := trail state from_
  have same := Action.after?_settle frame step' state
  unfold Action.settle at same ⊢
  generalize step state = outcome, step' state = outcome' at trails same ⊢
  cases trails with
  | value result leads => exact .value result leads
  | exit cause leads =>
    cases cause with
    | failed | broke | continued => exact .exit _ leads
    | returned value => exact .value value leads
  | unfinished => exact .unfinished
  | @stopped cause _ _ failed leads goesOn =>
    -- What stops a run is no signal.
    cases cause with
    | failed error => exact .stopped trivial leads fun last ended => goesOn last (same ▸ ended)
    | returned | broke | continued => cases failed

/-- A round of a loop. -/
theorem round {step step' : Action Exit Value} (trail : Action.Trail Exit.Fails base step step') :
    Action.Trail Exit.Fails base (Action.round step) (Action.round step') := by
  intro state from_
  have trails := trail state from_
  have same := Action.after?_round step' state
  unfold Action.round at same ⊢
  generalize step state = outcome, step' state = outcome' at trails same ⊢
  cases trails with
  | value result leads => exact .value _ leads
  | exit cause leads =>
    cases cause with
    | failed | returned => exact .exit _ leads
    | broke | continued => exact .value _ leads
  | unfinished => exact .unfinished
  | @stopped cause _ _ failed leads goesOn =>
    -- What stops a run is no signal.
    cases cause with
    | failed error => exact .stopped trivial leads fun last ended => goesOn last (same ▸ ended)
    | returned | broke | continued => cases failed

/-- A new list. -/
theorem makeList (elements : Array Value) :
    Action.Trail fails base (Action.makeList elements) (Action.makeList elements) :=
  bind (make fun store _ => .single (.addList store elements)) fun _ => pure _

/-- What an operation yields. -/
theorem yield (result : Operation.Result) :
    Action.Trail fails base (Action.yield result) (Action.yield result) := by
  -- Only a list has to be made.
  cases result with
  | value value => exact pure value
  | list elements => exact makeList elements

/-- A definition. -/
theorem define (scope : ScopeId) (name : String) (value : Value) :
    Action.Trail fails base (Action.change (Store.define scope name value))
      (Action.change (Store.define scope name value)) :=
  change fun store _ => .single (.define store scope name value)

/-- A change of a list. -/
theorem modifyList (list : ListId) (update : Array Value → Array Value) :
    Action.Trail fails base (Action.change (Store.modifyList list update))
      (Action.change (Store.modifyList list update)) :=
  change fun store _ => .single (.modifyList store list update)

end Action.Trail

end Scriptlet
