import Scriptlet.Proofs.Eval.Arguments
import Scriptlet.Proofs.Eval.Operators
import Scriptlet.Proofs.Eval.Targets

/-! What constructs that are built alike do in corresponding frames. -/

namespace Scriptlet

namespace Eval

/-- A counted loop sets its variable, goes through one round, and goes on with the next counter. -/
theorem countedRounds_succ (counting : Counting) (bind : Number → Store → Store)
    (round : Action Exit Action.Round) (form : BodyForm) (rounds : Nat) (counter : Number)
    (values : Array Value) :
    countedRounds counting bind round form (rounds + 1) counter values =
      if counting.goesOn counter then do
        Action.change (bind counter)
        match ← round with
        | .next yielded =>
          countedRounds counting bind round form rounds (counter.add counting.step)
            (form.keep values yielded)
        | .last => form.collect values
      else form.collect values := by
  -- Both sides look at the outcome of the round in the same way.
  funext ⟨store, host⟩
  simp only [countedRounds]
  split
  · simp only [Action.bind_apply, Action.change_apply]
    rcases round ⟨bind counter store, host⟩ with ⟨yielded | _, state⟩ | _ | _ <;> rfl
  · rfl

/-- A conditional loop evaluates its condition, goes through one round, and starts again. -/
theorem conditionalRounds_succ (condition : Action Exit Value) (round : Action Exit Action.Round)
    (form : BodyForm) (rounds : Nat) (values : Array Value) :
    conditionalRounds condition round form (rounds + 1) values = (do
      let value ← condition
      if ← Action.look (·.truth value) then
        match ← round with
        | .next yielded =>
          conditionalRounds condition round form rounds (form.keep values yielded)
        | .last => form.collect values
      else form.collect values) := by
  -- Both sides look at the outcomes of the condition and of the round in the same way.
  funext state
  simp only [conditionalRounds, Action.bind_apply]
  rcases condition state with ⟨value, state⟩ | _ | _
  · simp only [Action.look_apply]
    split
    · simp only [Action.bind_apply]
      rcases round state with ⟨yielded | _, state⟩ | _ | _ <;> rfl
    · rfl
  · rfl
  · rfl

end Eval

namespace Coupling

/-- A scope in which all of some names may be bound. -/
def Permits (coupling : Coupling) (scope : ScopeId) (names : List String) : Prop :=
  ∀ name ∈ names, coupling.permits scope name

/--
Evaluators that do the same with alike constructs, as long as they may bind what they bind and speak
of what they name.
-/
def Evaluators (coupling : Coupling) (evaluate evaluate' : Evaluator) : Prop :=
  ∀ world roots node node' frame frame', node.Similar coupling.spans node' →
    coupling.Frames world roots frame frame' → coupling.Permits frame.scope node.targets →
    coupling.Speaks node.names →
    coupling.Steps world (coupling.Exits roots) coupling.Values (evaluate node frame)
      (evaluate' node' frame')

/-- Libraries whose functions do the same with corresponding arguments for their parameters. -/
def Libraries (coupling : Coupling) (library library' : Library) : Prop :=
  ∀ evaluate evaluate', coupling.Evaluators evaluate evaluate' →
    ∀ world roots frame frame' site site' function arguments arguments',
      coupling.Frames world roots frame frame' → coupling.spans site site' →
      arguments.length = function.parameters.length → coupling.Rows world arguments arguments' →
      coupling.Steps world (coupling.Errors roots) coupling.Values
        (library evaluate frame site function arguments)
        (library' evaluate' frame' site' function arguments')

/-- A second run that is cut off where the first one is, or further on where the coupling is lax. -/
def Outlasts (coupling : Coupling) (reach reach' : Nat) : Prop :=
  reach = reach' ∨ coupling.lax ∧ reach ≤ reach'

variable {coupling : Coupling} {world : coupling.World} {roots : CallChain → CallChain → Prop}
  {evaluate evaluate' : Evaluator} {frame frame' : Frame} {rounds rounds' : Nat}

/-- As long as the first run goes on, so does the second. -/
theorem Outlasts.succ (outlasts : coupling.Outlasts (rounds + 1) rounds') :
    ∃ fewer, rounds' = fewer + 1 ∧ coupling.Outlasts rounds fewer := by
  -- Either both have as much left, or the second one has more.
  rcases outlasts with rfl | ⟨lax, more⟩
  · exact ⟨rounds, rfl, .inl rfl⟩
  · obtain ⟨fewer, rfl⟩ := Nat.exists_eq_add_one_of_ne_zero (Nat.ne_of_gt (Nat.lt_of_lt_of_le
      (Nat.succ_pos rounds) more))
    exact ⟨fewer, rfl, .inr ⟨lax, Nat.le_of_succ_le_succ more⟩⟩

/-- Where the first run is cut off, the second one is or does not matter. -/
theorem Outlasts.cut {ε ε' α α' : Type} {exits : coupling.World → ε → ε' → Prop}
    {results : coupling.World → α → α' → Prop} (step : Nat → Action ε' α')
    (outlasts : coupling.Outlasts 0 rounds) (cutOff : ∀ state, step 0 state = .unfinished) :
    coupling.Steps world exits results Action.cutOff (step rounds) := by
  -- Only where the coupling is lax is there anything left of the second run.
  intro later grown state state' states
  rcases outlasts with rfl | ⟨lax, _⟩
  · rw [cutOff state']
    exact .unfinished
  · exact .cut lax _

/-- Names that may be bound in front of others. -/
theorem Permits.left {scope : ScopeId} {names others : List String}
    (permitted : coupling.Permits scope (names ++ others)) : coupling.Permits scope names :=
  fun name member => permitted name (List.mem_append_left _ member)

/-- Names that may be bound behind others. -/
theorem Permits.right {scope : ScopeId} {names others : List String}
    (permitted : coupling.Permits scope (names ++ others)) : coupling.Permits scope others :=
  fun name member => permitted name (List.mem_append_right _ member)

/-- The first of the names that may be bound. -/
theorem Permits.head {scope : ScopeId} {name : String} {names : List String}
    (permitted : coupling.Permits scope (name :: names)) : coupling.permits scope name :=
  permitted name List.mem_cons_self

/-- The names that may be bound, but for the first one. -/
theorem Permits.tail {scope : ScopeId} {name : String} {names : List String}
    (permitted : coupling.Permits scope (name :: names)) : coupling.Permits scope names :=
  fun other member => permitted other (List.mem_cons_of_mem _ member)

/-- Corresponding values are true together, at all later times. -/
theorem Steps.truth {ε ε' : Type} {exits : coupling.World → ε → ε' → Prop} {value value' : Value}
    (lawful : coupling.Lawful) (alike : coupling.Values world value value') :
    coupling.Steps world exits (fun _ (holds holds' : Bool) => holds = holds')
      (Action.look (·.truth value)) (Action.look (·.truth value')) :=
  look lawful fun _ grown _ _ stores => truth_eq lawful stores (alike.mono lawful grown)

/-- The values of alike constructs correspond once all of them are there. -/
theorem Evaluators.values {nodes nodes' : List Node} (lawful : coupling.Lawful)
    (evaluators : coupling.Evaluators evaluate evaluate')
    (frames : coupling.Frames world roots frame frame')
    (alike : List.Forall₂ (Node.Similar coupling.spans) nodes nodes')
    (permitted : coupling.Permits frame.scope (Node.targetsOfAll nodes))
    (spoken : coupling.Speaks (Node.namesOfAll nodes)) :
    coupling.Steps world (coupling.Exits roots) coupling.Rows (Eval.values evaluate frame nodes)
      (Eval.values evaluate' frame' nodes') := by
  -- The first value still corresponds in the world that the last one was made in.
  induction alike generalizing world with
  | nil => exact Steps.pure lawful fun _ _ => .nil
  | cons same others ih =>
    simp only [Eval.values]
    apply Steps.bind lawful (evaluators _ _ _ _ _ _ same frames permitted.left spoken.left)
    intro later grown value value' first
    apply Steps.bind lawful (ih (frames.mono lawful grown) permitted.right spoken.right)
    intro last more row row' rest
    exact Steps.pure lawful fun end_ longer =>
      .cons ((first.mono lawful more).mono lawful longer) (Rows.mono lawful longer rest)

/-- Lists of alike constructs. -/
theorem Evaluators.list {nodes nodes' : List Node} (lawful : coupling.Lawful)
    (evaluators : coupling.Evaluators evaluate evaluate')
    (frames : coupling.Frames world roots frame frame')
    (alike : List.Forall₂ (Node.Similar coupling.spans) nodes nodes')
    (permitted : coupling.Permits frame.scope (Node.targetsOfAll nodes))
    (spoken : coupling.Speaks (Node.namesOfAll nodes)) :
    coupling.Steps world (coupling.Exits roots) coupling.Values (Eval.list evaluate frame nodes)
      (Eval.list evaluate' frame' nodes') := by
  -- All elements are evaluated before the list is made.
  apply Steps.bind lawful (evaluators.values lawful frames alike permitted spoken)
  intro later grown row row' same
  exact Steps.makeList lawful same

/-- Alike constructs that have to be numbers are the same number, or fail at related places. -/
theorem Evaluators.number {node node' : Node} (lawful : coupling.Lawful)
    (evaluators : coupling.Evaluators evaluate evaluate')
    (frames : coupling.Frames world roots frame frame')
    (alike : node.Similar coupling.spans node')
    (permitted : coupling.Permits frame.scope node.targets)
    (spoken : coupling.Speaks node.names) :
    coupling.Steps world (coupling.Exits roots) (fun _ number number' => number = number')
      (Eval.number evaluate frame node) (Eval.number evaluate' frame' node') := by
  -- Corresponding values are numbers together.
  apply Steps.bind lawful (evaluators _ _ _ _ _ _ alike frames permitted spoken)
  intro later grown value value' same
  have failed : coupling.Steps later (coupling.Exits roots)
      (fun _ (number number' : Number) => number = number')
      (liftM (Action.fail frame (.operation .illegal) node.span : Action EvalError Number))
      (liftM (Action.fail frame' (.operation .illegal) node'.span : Action EvalError Number)) :=
    Steps.lift (Steps.fail lawful (frames.mono lawful grown) alike.span (.same _))
  cases same with
  | number number => exact Steps.pure lawful fun _ _ => rfl
  | text text => exact failed
  | list places => exact failed
  | closure places => exact failed
  | builtin builtin => exact failed

/-- The nearest variables of one name. -/
theorem Frames.reference {span span' : Span} {name : String} (lawful : coupling.Lawful)
    (frames : coupling.Frames world roots frame frame') (places : coupling.spans span span')
    (spoken : coupling.speaks name) :
    coupling.Steps world (coupling.Errors roots) coupling.Values (Eval.reference frame span name)
      (Eval.reference frame' span' name) := by
  -- Either both scopes see a variable of the name or none of them does.
  have seen : coupling.Steps world (coupling.Errors roots)
      (fun later => Option.Rel (coupling.Values later)) (Action.look (·.lookup frame.scope name))
      (Action.look (·.lookup frame'.scope name)) :=
    Steps.look lawful fun later grown store store' stores =>
      lawful.lookup spoken stores (lawful.scopes_mono grown frames.scope)
  apply Steps.bind lawful seen
  intro later grown found found' same
  cases same with
  | none => exact Steps.fail lawful (frames.mono lawful grown) places (.same _)
  | some alike => exact Steps.pure lawful fun _ more => alike.mono lawful more

/-- Copies of corresponding values correspond in a world that has grown. -/
theorem Lawful.copy {store store' : Store} {value value' : Value} (lawful : coupling.Lawful)
    (stores : coupling.stores world store store') (alike : coupling.Values world value value') :
    ∃ later, coupling.grows world later ∧
      coupling.Values later (store.copy value).1 (store'.copy value').1 ∧
      coupling.stores later (store.copy value).2 (store'.copy value').2 := by
  -- Only lists are made anew, with the elements they had.
  have grown := lawful.grows_refl world
  cases alike with
  | number number => exact ⟨world, grown, .number number, stores⟩
  | text text => exact ⟨world, grown, .text text, stores⟩
  | closure places => exact ⟨world, grown, .closure places, stores⟩
  | builtin builtin => exact ⟨world, grown, .builtin builtin, stores⟩
  | list places =>
    obtain ⟨later, grown, places, stores⟩ :=
      lawful.addList stores (lawful.elements stores places)
    exact ⟨later, grown, .list places, stores⟩

/-- Definitions of a permitted variable by corresponding values. -/
theorem Frames.define {ε ε' : Type} {exits : coupling.World → ε → ε' → Prop} {name : String}
    {value value' : Value} (lawful : coupling.Lawful)
    (frames : coupling.Frames world roots frame frame')
    (permitted : coupling.permits frame.scope name)
    (alike : coupling.Values world value value') :
    coupling.Steps world exits (fun _ _ _ => True)
      (Action.change (Store.define frame.scope name value))
      (Action.change (Store.define frame'.scope name value')) := by
  -- The scopes and the values still correspond when the definition takes place.
  apply Steps.change
  intro later grown store store' stores
  have places := lawful.scopes_mono grown frames.scope
  exact ⟨later, lawful.grows_refl later,
    lawful.define stores places permitted (alike.mono lawful grown)⟩

/-- Assignments of alike constructs to variables of one name. -/
theorem Evaluators.assign {name : String} {node node' : Node} (lawful : coupling.Lawful)
    (evaluators : coupling.Evaluators evaluate evaluate')
    (frames : coupling.Frames world roots frame frame')
    (alike : node.Similar coupling.spans node')
    (permitted : coupling.Permits frame.scope (name :: node.targets))
    (spoken : coupling.Speaks node.names) :
    coupling.Steps world (coupling.Exits roots) coupling.Values
      (Eval.assign evaluate frame name node) (Eval.assign evaluate' frame' name node') := by
  -- The value, its copy and the definition come in this order.
  unfold Eval.assign
  apply Steps.bind lawful (evaluators _ _ _ _ _ _ alike frames permitted.tail spoken)
  intro later grown value value' same
  have copied : coupling.Steps later (coupling.Exits roots) coupling.Values
      (Action.make (Store.copy value)) (Action.make (Store.copy value')) :=
    Steps.make fun last more store store' stores => lawful.copy stores (same.mono lawful more)
  apply Steps.bind lawful copied
  intro last more copy copy' copies
  have framesLast := (frames.mono lawful grown).mono lawful more
  apply Steps.bind lawful (framesLast.define lawful permitted.head copies)
  intro final longer _ _ _
  exact Steps.pure lawful fun _ furthest =>
    (copies.mono lawful longer).mono lawful furthest

/-- Operators between alike constructs. -/
theorem Evaluators.binary {span span' : Span} {operator : BinaryOperator}
    {left left' right right' : Node} (lawful : coupling.Lawful)
    (evaluators : coupling.Evaluators evaluate evaluate')
    (frames : coupling.Frames world roots frame frame') (places : coupling.spans span span')
    (lefts : left.Similar coupling.spans left') (rights : right.Similar coupling.spans right')
    (permitted : coupling.Permits frame.scope (left.targets ++ right.targets))
    (spoken : coupling.Speaks (left.names ++ right.names)) :
    coupling.Steps world (coupling.Exits roots) coupling.Values
      (Eval.binary evaluate frame span operator left right)
      (Eval.binary evaluate' frame' span' operator left' right') := by
  -- Both operands are evaluated before the operator looks at them.
  unfold Eval.binary
  apply Steps.bind lawful (evaluators _ _ _ _ _ _ lefts frames permitted.left spoken.left)
  intro later grown leftValue leftValue' lefts
  have framesLater := frames.mono lawful grown
  apply Steps.bind lawful
    (evaluators _ _ _ _ _ _ rights framesLater permitted.right spoken.right)
  intro last more rightValue rightValue' rightValues
  apply Steps.bind lawful (Steps.memory lawful)
  rintro room wider memory _ rfl
  have attempts : coupling.Steps room (coupling.Exits roots)
      (fun world => Attempts (coupling.Results world))
      (Action.look (Operation.binary memory operator leftValue rightValue))
      (Action.look (Operation.binary memory operator leftValue' rightValue')) :=
    Steps.look lawful fun final longer store store' stores =>
      binary_attempts memory operator lawful stores
        (((lefts.mono lawful more).mono lawful wider).mono lawful longer)
        ((rightValues.mono lawful wider).mono lawful longer)
  apply Steps.bind lawful attempts
  intro final longer attempt attempt' same
  cases same with
  | ok alike => exact Steps.yield lawful alike
  | error fault =>
    -- The site of the failure is chosen by the fault, which is the same.
    have framesFinal := ((framesLater.mono lawful more).mono lawful wider).mono lawful longer
    apply Steps.lift
    apply Steps.fail lawful framesFinal _ (.same _)
    split
    · exact places
    · exact rights.span

/-- Operators before alike constructs. -/
theorem Evaluators.unary {span span' : Span} {operator : UnaryOperator} {operand operand' : Node}
    (lawful : coupling.Lawful) (evaluators : coupling.Evaluators evaluate evaluate')
    (frames : coupling.Frames world roots frame frame') (places : coupling.spans span span')
    (alike : operand.Similar coupling.spans operand')
    (permitted : coupling.Permits frame.scope operand.targets)
    (spoken : coupling.Speaks operand.names) :
    coupling.Steps world (coupling.Exits roots) coupling.Values
      (Eval.unary evaluate frame span operator operand)
      (Eval.unary evaluate' frame' span' operator operand') := by
  -- The operand is evaluated before the operator looks at it.
  unfold Eval.unary
  apply Steps.bind lawful (evaluators _ _ _ _ _ _ alike frames permitted spoken)
  intro later grown value value' same
  have attempts : coupling.Steps later (coupling.Exits roots)
      (fun world => Attempts (coupling.Values world))
      (Action.look (Operation.unary operator value))
      (Action.look (Operation.unary operator value')) :=
    Steps.look lawful fun last more store store' stores =>
      unary_attempts operator lawful stores (same.mono lawful more)
  apply Steps.bind lawful attempts
  intro last more attempt attempt' same
  cases same with
  | ok alike => exact Steps.pure lawful fun _ longer => alike.mono lawful longer
  | error fault =>
    have framesLast := (frames.mono lawful grown).mono lawful more
    exact Steps.lift (Steps.fail lawful framesLast places (.same _))

/-- The results of corresponding bodies. -/
theorem Values.result {value value' : Value} (form : BodyForm)
    (alike : coupling.Values world value value') :
    coupling.Values world (form.result value) (form.result value') := by
  -- A block has none.
  cases form with
  | inline => exact alike
  | block => exact Values.null

/-- Alike bodies. -/
theorem Evaluators.body {node node' : Node} {form : BodyForm} (lawful : coupling.Lawful)
    (evaluators : coupling.Evaluators evaluate evaluate')
    (frames : coupling.Frames world roots frame frame')
    (alike : node.Similar coupling.spans node')
    (permitted : coupling.Permits frame.scope node.targets)
    (spoken : coupling.Speaks node.names) :
    coupling.Steps world (coupling.Exits roots) coupling.Values
      (Eval.body evaluate frame node form) (Eval.body evaluate' frame' node' form) := by
  -- The value is kept or dropped in both.
  unfold Eval.body
  apply Steps.bind lawful (evaluators _ _ _ _ _ _ alike frames permitted spoken)
  intro later grown value value' same
  exact Steps.pure lawful fun last more => (same.mono lawful more).result form

/-- Alike choices. -/
theorem Evaluators.choices (lawful : coupling.Lawful)
    (evaluators : coupling.Evaluators evaluate evaluate') :
    ∀ {choices choices' : Choices} {world : coupling.World},
      coupling.Frames world roots frame frame' → choices.Similar coupling.spans choices' →
      coupling.Permits frame.scope choices.targets → coupling.Speaks choices.names →
      coupling.Steps world (coupling.Exits roots) coupling.Values
        (Eval.choices evaluate frame choices) (Eval.choices evaluate' frame' choices')
  | .none, _, _, _, .none, _, _ => Steps.pure lawful fun _ _ => Values.null
  | .otherwise _ _, _, _, frames, .otherwise bodies, permitted, spoken =>
    evaluators.body lawful frames bodies permitted spoken
  | .test _ _ _ _, _, _, frames, .test conditions bodies others, permitted, spoken => by
    -- Both conditions choose alike, and leave the other choices to the recursion.
    simp only [Choices.targets] at permitted
    simp only [Choices.names] at spoken
    simp only [Eval.choices]
    apply Steps.bind lawful
      (evaluators _ _ _ _ _ _ conditions frames permitted.left.left spoken.left.left)
    intro later grown value value' same
    apply Steps.bind lawful (Steps.truth lawful same)
    rintro last more holds holds' rfl
    have framesLast := (frames.mono lawful grown).mono lawful more
    split
    · exact evaluators.body lawful framesLast bodies permitted.left.right spoken.left.right
    · exact Evaluators.choices lawful evaluators framesLast others permitted.right spoken.right

/-- What a loop keeps of corresponding rounds. -/
theorem Rows.keep {values values' : Array Value} {yielded yielded' : Option Value}
    (form : BodyForm) (alike : coupling.Rows world values.toList values'.toList)
    (same : Option.Rel (coupling.Values world) yielded yielded') :
    coupling.Rows world (form.keep values yielded).toList (form.keep values' yielded').toList := by
  -- Only a loop on one line keeps what its rounds yield.
  cases form with
  | block => exact alike
  | inline =>
    cases same with
    | none => exact alike
    | some same => exact alike.push same

/-- What loops collect of corresponding rounds. -/
theorem Steps.collect {ε ε' : Type} {exits : coupling.World → ε → ε' → Prop}
    {values values' : Array Value} (form : BodyForm) (lawful : coupling.Lawful)
    (alike : coupling.Rows world values.toList values'.toList) :
    coupling.Steps world exits coupling.Values (form.collect values) (form.collect values') := by
  -- A block collects nothing.
  cases form with
  | block => exact pure lawful fun _ _ => Values.null
  | inline => exact makeList lawful alike

/-- Rounds of counted loops with alike bodies. -/
theorem Steps.countedRounds {counting : Counting} {bind bind' : Number → Store → Store}
    {round round' : Action Exit Action.Round} {form : BodyForm} {counter : Number}
    {values values' : Array Value} (lawful : coupling.Lawful)
    (binds : ∀ counter, coupling.Steps world (coupling.Exits roots) (fun _ _ _ => True)
      (Action.change (bind counter)) (Action.change (bind' counter)))
    (bodies : coupling.Steps world (coupling.Exits roots) coupling.Rounds round round')
    (alike : coupling.Rows world values.toList values'.toList)
    (outlasts : coupling.Outlasts rounds rounds') :
    coupling.Steps world (coupling.Exits roots) coupling.Values
      (Eval.countedRounds counting bind round form rounds counter values)
      (Eval.countedRounds counting bind' round' form rounds' counter values') := by
  -- Each round starts in the world that the one before has grown to.
  induction rounds generalizing world counter values values' rounds' with
  | zero =>
    exact outlasts.cut
      (fun rounds' => Eval.countedRounds counting bind' round' form rounds' counter values')
      fun ⟨_, _⟩ => rfl
  | succ rounds ih =>
    obtain ⟨rounds', rfl, further⟩ := outlasts.succ
    rw [Eval.countedRounds_succ, Eval.countedRounds_succ]
    split
    · apply Steps.bind lawful (binds counter)
      intro later grown _ _ _
      apply Steps.bind lawful (bodies.mono lawful grown)
      intro last more ended ended' same
      have grownLast := lawful.grows_trans grown more
      have alikeLast := Rows.mono lawful grownLast alike
      cases same with
      | last => exact collect form lawful alikeLast
      | next yields =>
        exact ih (fun counter => (binds counter).mono lawful grownLast)
          (bodies.mono lawful grownLast) (alikeLast.keep form yields) further
    · exact collect form lawful alike

/-- Rounds of conditional loops with alike conditions and bodies. -/
theorem Steps.conditionalRounds {condition condition' : Action Exit Value}
    {round round' : Action Exit Action.Round} {form : BodyForm} {values values' : Array Value}
    (lawful : coupling.Lawful)
    (conditions : coupling.Steps world (coupling.Exits roots) coupling.Values condition condition')
    (bodies : coupling.Steps world (coupling.Exits roots) coupling.Rounds round round')
    (alike : coupling.Rows world values.toList values'.toList)
    (outlasts : coupling.Outlasts rounds rounds') :
    coupling.Steps world (coupling.Exits roots) coupling.Values
      (Eval.conditionalRounds condition round form rounds values)
      (Eval.conditionalRounds condition' round' form rounds' values') := by
  -- Each round starts in the world that the one before has grown to.
  induction rounds generalizing world values values' rounds' with
  | zero =>
    exact outlasts.cut
      (fun rounds' => Eval.conditionalRounds condition' round' form rounds' values') fun _ => rfl
  | succ rounds ih =>
    obtain ⟨rounds', rfl, further⟩ := outlasts.succ
    rw [Eval.conditionalRounds_succ, Eval.conditionalRounds_succ]
    apply Steps.bind lawful conditions
    intro later grown value value' same
    apply Steps.bind lawful (truth lawful same)
    rintro tested more holds holds' rfl
    have grownTested := lawful.grows_trans grown more
    split
    · apply Steps.bind lawful (bodies.mono lawful grownTested)
      intro last longer ended ended' same
      have grownLast := lawful.grows_trans grownTested longer
      have alikeLast := Rows.mono lawful grownLast alike
      cases same with
      | last => exact collect form lawful alikeLast
      | next yields =>
        exact ih (conditions.mono lawful grownLast) (bodies.mono lawful grownLast)
          (alikeLast.keep form yields) further
    · exact collect form lawful (Rows.mono lawful grownTested alike)

/-- The steps of alike counted loops are the same number. -/
theorem Evaluators.stepOf {step step' : Option Node} (lawful : coupling.Lawful)
    (evaluators : coupling.Evaluators evaluate evaluate')
    (frames : coupling.Frames world roots frame frame')
    (alike : Option.Rel (Node.Similar coupling.spans) step step')
    (permitted : coupling.Permits frame.scope (Node.targetsOfOption step))
    (spoken : coupling.Speaks (Node.namesOfOption step)) :
    coupling.Steps world (coupling.Exits roots) (fun _ number number' => number = number')
      (Eval.stepOf evaluate frame step) (Eval.stepOf evaluate' frame' step') := by
  -- Without a step it is one.
  cases alike with
  | none => exact Steps.pure lawful fun _ _ => rfl
  | some same => exact evaluators.number lawful frames same permitted spoken

/-- Alike counted loops. -/
theorem Evaluators.forLoop {name : String} {first first' bound bound' : Node}
    {step step' : Option Node} {node node' : Node} {form : BodyForm} (lawful : coupling.Lawful)
    (evaluators : coupling.Evaluators evaluate evaluate')
    (frames : coupling.Frames world roots frame frame')
    (firsts : first.Similar coupling.spans first') (bounds : bound.Similar coupling.spans bound')
    (steps : Option.Rel (Node.Similar coupling.spans) step step')
    (bodies : node.Similar coupling.spans node')
    (permitted : coupling.Permits frame.scope (name :: (first.targets ++ bound.targets ++
      Node.targetsOfOption step ++ node.targets)))
    (spoken : coupling.Speaks (first.names ++ bound.names ++ Node.namesOfOption step ++
      node.names))
    (outlasts : coupling.Outlasts rounds rounds') :
    coupling.Steps world (coupling.Exits roots) coupling.Values
      (Eval.forLoop evaluate frame rounds name first bound step node form)
      (Eval.forLoop evaluate' frame' rounds' name first' bound' step' node' form) := by
  -- The numbers of the header are the same, and each round binds the variable alike.
  have header := permitted.tail.left.left
  unfold Eval.forLoop
  apply Steps.bind lawful
    (evaluators.number lawful frames firsts header.left spoken.left.left.left)
  rintro started grown start _ rfl
  have framesStarted := frames.mono lawful grown
  apply Steps.bind lawful
    (evaluators.number lawful framesStarted bounds header.right spoken.left.left.right)
  rintro bounded more bound _ rfl
  have framesBounded := framesStarted.mono lawful more
  apply Steps.bind lawful
    (evaluators.stepOf lawful framesBounded steps permitted.tail.left.right spoken.left.right)
  rintro stepped longer step _ rfl
  have framesStepped := framesBounded.mono lawful longer
  have body := evaluators _ _ _ _ _ _ bodies framesStepped permitted.tail.right spoken.right
  apply Steps.countedRounds lawful _ body.round .nil outlasts
  intro counter
  exact framesStepped.define lawful permitted.head (.number counter)

/-- Alike conditional loops. -/
theorem Evaluators.whileLoop {condition condition' node node' : Node} {form : BodyForm}
    (lawful : coupling.Lawful) (evaluators : coupling.Evaluators evaluate evaluate')
    (frames : coupling.Frames world roots frame frame')
    (conditions : condition.Similar coupling.spans condition')
    (bodies : node.Similar coupling.spans node')
    (permitted : coupling.Permits frame.scope (condition.targets ++ node.targets))
    (spoken : coupling.Speaks (condition.names ++ node.names))
    (outlasts : coupling.Outlasts rounds rounds') :
    coupling.Steps world (coupling.Exits roots) coupling.Values
      (Eval.whileLoop evaluate frame rounds condition node form)
      (Eval.whileLoop evaluate' frame' rounds' condition' node' form) := by
  -- Condition and body are evaluated alike in every world from here on.
  have tests := evaluators _ _ _ _ _ _ conditions frames permitted.left spoken.left
  have body := evaluators _ _ _ _ _ _ bodies frames permitted.right spoken.right
  exact Steps.conditionalRounds lawful tests body.round .nil outlasts

/-- Functions that are built alike, in corresponding scopes. -/
theorem Frames.function {ε ε' : Type} {exits : coupling.World → ε → ε' → Prop}
    {name : Option String} {parameters : List String} {body body' : Node} {form : BodyForm}
    (lawful : coupling.Lawful) (frames : coupling.Frames world roots frame frame')
    (bodies : body.Similar coupling.spans body')
    (permitted : coupling.Permits frame.scope name.toList)
    (spoken : coupling.Speaks body.names) :
    coupling.Steps world exits coupling.Values
      (Eval.function frame name parameters body form)
      (Eval.function frame' name parameters body' form) := by
  -- A function with a name is bound to it once it is made.
  unfold Eval.function
  let closure : Closure := { name, parameters, body, form, scope := frame.scope }
  let closure' : Closure := { name, parameters, body := body', form, scope := frame'.scope }
  have made : coupling.Steps world exits coupling.closures
      (Action.make (Store.addClosure closure)) (Action.make (Store.addClosure closure')) := by
    apply Steps.make
    intro later grown store store' stores
    have places := lawful.scopes_mono grown frames.scope
    exact lawful.addClosure stores ⟨rfl, rfl, rfl, bodies, places⟩ spoken
  apply Steps.bind lawful made
  intro later grown place place' places
  have same : ∀ last, coupling.grows later last →
      coupling.Values last (.closure place) (.closure place') :=
    fun last more => .closure (lawful.closures_mono more places)
  cases name with
  | none => exact Steps.pure lawful same
  | some name =>
    have framesLater := frames.mono lawful grown
    apply Steps.bind lawful (framesLater.define lawful permitted.head (.closure places))
    intro last more _ _ _
    exact Steps.pure lawful fun final longer => same final (lawful.grows_trans more longer)

/-- Parameters bound to copies of corresponding arguments, in a scope that permits all names. -/
theorem Lawful.bindParameters {scope scope' : ScopeId} {store store' : Store}
    {parameters : List String} {arguments arguments' : List Value} (lawful : coupling.Lawful)
    (permitted : ∀ name, coupling.permits scope name)
    (stores : coupling.stores world store store') (places : coupling.scopes world scope scope')
    (alike : coupling.Rows world arguments arguments') :
    ∃ later, coupling.grows world later ∧ coupling.stores later
      (Eval.bindParameters scope (parameters.zip arguments) store)
      (Eval.bindParameters scope' (parameters.zip arguments') store') := by
  -- The induction goes along the parameters; every copy may let the world grow.
  induction parameters generalizing world store store' arguments arguments' with
  | nil => exact ⟨world, lawful.grows_refl world, stores⟩
  | cons name parameters ih =>
    cases alike with
    | nil => exact ⟨world, lawful.grows_refl world, stores⟩
    | cons same others =>
      obtain ⟨copied, grown, copies, stores⟩ := lawful.copy stores same
      have places := lawful.scopes_mono grown places
      have defined := lawful.define stores places (permitted name) copies
      obtain ⟨later, more, bound⟩ := ih defined places (Rows.mono lawful grown others)
      exact ⟨later, lawful.grows_trans grown more, bound⟩

/--
Calls of functions that are built alike, with corresponding arguments. Only the bodies can fail, so
that frames have to correspond once the calls are entered.
-/
theorem Evaluators.callEntered {site site' : Span} {closure closure' : Closure}
    {arguments arguments' : List Value} (lawful : coupling.Lawful)
    (evaluators : coupling.Evaluators evaluate evaluate')
    (functions : coupling.Functions world closure closure')
    (spoken : coupling.Speaks closure.body.names)
    (frames : coupling.Frames world roots (frame.enter closure.label site)
      (frame'.enter closure'.label site'))
    (alike : coupling.Rows world arguments arguments') :
    coupling.Steps world (coupling.Errors roots) coupling.Values
      (Eval.callClosure evaluate frame site closure arguments)
      (Eval.callClosure evaluate' frame' site' closure' arguments') := by
  -- The body runs in a new scope, where it may bind what it wants.
  obtain ⟨name, parameters, body, form, scope⟩ := closure
  obtain ⟨_, _, body', _, scope'⟩ := closure'
  obtain ⟨rfl, rfl, rfl, bodies, scopes⟩ := functions
  unfold Eval.callClosure
  have enclosed : coupling.Steps world (coupling.Errors roots)
      (fun later inner inner' => coupling.scopes later inner inner' ∧
        ∀ name, coupling.permits inner name)
      (Action.make (Store.enclose scope)) (Action.make (Store.enclose scope')) := by
    apply Steps.make
    intro later grown store store' stores
    obtain ⟨last, more, inners, stores, permitted⟩ :=
      lawful.enclose stores (lawful.scopes_mono grown scopes)
    exact ⟨last, more, ⟨inners, permitted⟩, stores⟩
  apply Steps.bind lawful enclosed
  rintro later grown inner inner' ⟨inners, permitted⟩
  have bound : coupling.Steps later (coupling.Errors roots) (fun _ _ _ => True)
      (Action.change (Eval.bindParameters inner (parameters.zip arguments)))
      (Action.change (Eval.bindParameters inner' (parameters.zip arguments'))) := by
    apply Steps.change
    intro last more store store' stores
    have alikeLast := Rows.mono lawful (lawful.grows_trans grown more) alike
    exact lawful.bindParameters permitted stores (lawful.scopes_mono more inners) alikeLast
  apply Steps.bind lawful bound
  intro last more _ _ _
  have framesLast := (frames.mono lawful grown).mono lawful more
  have entered := framesLast.within (lawful.scopes_mono more inners)
  apply Steps.settle entered
  exact evaluators.body lawful entered bodies (fun name _ => permitted name) spoken

/-- Calls of functions that are built alike, with corresponding arguments. -/
theorem Evaluators.callClosure {site site' : Span} {closure closure' : Closure}
    {arguments arguments' : List Value} (lawful : coupling.Lawful)
    (evaluators : coupling.Evaluators evaluate evaluate')
    (frames : coupling.Frames world roots frame frame') (places : coupling.spans site site')
    (functions : coupling.Functions world closure closure')
    (spoken : coupling.Speaks closure.body.names)
    (alike : coupling.Rows world arguments arguments') :
    coupling.Steps world (coupling.Errors roots) coupling.Values
      (Eval.callClosure evaluate frame site closure arguments)
      (Eval.callClosure evaluate' frame' site' closure' arguments') := by
  -- Functions that are built alike have one name.
  have entered := frames.enter closure.label places
  rw [show frame'.enter closure.label site' = frame'.enter closure'.label site' by
    rw [functions.label]] at entered
  exact evaluators.callEntered lawful functions spoken entered alike

/-- The wrong number of arguments is the same for corresponding functions and arguments. -/
theorem Steps.arity {α α' : Type} {results : coupling.World → α → α' → Prop} {site site' : Span}
    (lawful : coupling.Lawful) (frames : coupling.Frames world roots frame frame')
    (places : coupling.spans site site') (cause : Option EvalError.Cause)
    (step : Action EvalError α) (step' : Action EvalError α') :
    (cause = none → coupling.Steps world (coupling.Errors roots) results step step') →
    coupling.Steps world (coupling.Errors roots) results
      (match cause with
        | some cause => Action.fail frame cause site
        | none => step)
      (match cause with
        | some cause => Action.fail frame' cause site'
        | none => step') := by
  -- Either both fail or both go on.
  intro alike
  cases cause with
  | some cause => exact fail lawful frames places (.same _)
  | none => exact alike rfl

/-- Calls of corresponding values with corresponding arguments. -/
theorem Evaluators.callValue {library library' : Library} {site site' : Span}
    {callee callee' : Value} {arguments arguments' : List Value} (lawful : coupling.Lawful)
    (libraries : coupling.Libraries library library')
    (evaluators : coupling.Evaluators evaluate evaluate')
    (frames : coupling.Frames world roots frame frame') (places : coupling.spans site site')
    (callees : coupling.Values world callee callee')
    (alike : coupling.Rows world arguments arguments') :
    coupling.Steps world (coupling.Errors roots) coupling.Values
      (Eval.callValue library evaluate frame site callee arguments)
      (Eval.callValue library' evaluate' frame' site' callee' arguments') := by
  -- Everything but a function fails.
  have failed {later : coupling.World} (frames : coupling.Frames later roots frame frame') :
      coupling.Steps later (coupling.Errors roots) coupling.Values
        (Action.fail frame (.operation .illegal) site)
        (Action.fail frame' (.operation .illegal) site') :=
    Steps.fail lawful frames places (.same _)
  unfold Eval.callValue
  cases callees with
  | number number => exact failed frames
  | text text => exact failed frames
  | list places => exact failed frames
  | builtin function =>
    simp only [alike.length_eq]
    exact Steps.arity lawful frames places _ _ _ fun fits =>
      libraries _ _ evaluators _ _ _ _ _ _ _ _ _ (frames.enter _ places) places
        (alike.length_eq.trans (Eval.length_of_arityError fits)) alike
  | @closure closure closure' closures =>
    have seen : coupling.Steps world (coupling.Errors roots)
        (fun later found found' => Option.Rel (coupling.Functions later) found found' ∧
          ∀ closure, found = some closure → coupling.Speaks closure.body.names)
        (Action.look (·.closure? closure)) (Action.look (·.closure? closure')) :=
      Steps.look lawful fun later grown store store' stores =>
        have placesLater := lawful.closures_mono grown closures
        ⟨lawful.closure? stores placesLater, fun _ => lawful.function stores placesLater⟩
    apply Steps.bind lawful seen
    rintro later grown found found' ⟨same, spoken⟩
    have framesLater := frames.mono lawful grown
    cases same with
    | none => exact failed framesLater
    | some functions =>
      have alikeLater := Rows.mono lawful grown alike
      simp only [functions.text, functions.parameters, alike.length_eq]
      exact Steps.arity lawful framesLater places _ _ _ fun _ =>
        evaluators.callClosure lawful framesLater places functions (spoken _ rfl) alikeLater

/-- Alike calls. -/
theorem Evaluators.call {library library' : Library} {site site' : Span} {callee callee' : Node}
    {arguments arguments' : List Node} (lawful : coupling.Lawful)
    (libraries : coupling.Libraries library library')
    (evaluators : coupling.Evaluators evaluate evaluate')
    (frames : coupling.Frames world roots frame frame') (places : coupling.spans site site')
    (callees : callee.Similar coupling.spans callee')
    (alike : List.Forall₂ (Node.Similar coupling.spans) arguments arguments')
    (permitted : coupling.Permits frame.scope (callee.targets ++ Node.targetsOfAll arguments))
    (spoken : coupling.Speaks (callee.names ++ Node.namesOfAll arguments)) :
    coupling.Steps world (coupling.Exits roots) coupling.Values
      (Eval.call library evaluate frame site callee arguments)
      (Eval.call library' evaluate' frame' site' callee' arguments') := by
  -- The function still corresponds when all arguments are there.
  unfold Eval.call
  apply Steps.bind lawful (evaluators _ _ _ _ _ _ callees frames permitted.left spoken.left)
  intro later grown function function' functions
  have framesLater := frames.mono lawful grown
  apply Steps.bind lawful
    (evaluators.values lawful framesLater alike permitted.right spoken.right)
  intro last more row row' rows
  have framesLast := framesLater.mono lawful more
  have functionsLast := functions.mono lawful more
  exact Steps.lift
    (evaluators.callValue lawful libraries framesLast places functionsLast rows)

/-- Alike ends of functions. -/
theorem Evaluators.returning {node node' : Option Node} (lawful : coupling.Lawful)
    (evaluators : coupling.Evaluators evaluate evaluate')
    (frames : coupling.Frames world roots frame frame')
    (alike : Option.Rel (Node.Similar coupling.spans) node node')
    (permitted : coupling.Permits frame.scope (Node.targetsOfOption node))
    (spoken : coupling.Speaks (Node.namesOfOption node)) :
    coupling.Steps world (coupling.Exits roots) coupling.Values
      (Eval.returning evaluate frame node) (Eval.returning evaluate' frame' node') := by
  -- Without a construct there is nothing to return.
  cases alike with
  | none => exact Steps.leave lawful fun _ _ => .returned Values.null
  | some same =>
    apply Steps.bind lawful (evaluators _ _ _ _ _ _ same frames permitted spoken)
    intro later grown value value' values
    exact Steps.leave lawful fun last more => .returned (values.mono lawful more)

/-- Alike constructs do the same when the constructs in them do. -/
theorem Evaluators.construct {library library' : Library} (lawful : coupling.Lawful)
    (libraries : coupling.Libraries library library')
    (evaluators : coupling.Evaluators evaluate evaluate')
    (outlasts : coupling.Outlasts rounds rounds') :
    coupling.Evaluators (Eval.construct library evaluate rounds)
      (Eval.construct library' evaluate' rounds') := by
  -- There is one case for each kind of construct, and a lemma for each case.
  intro world roots node node' frame frame' alike frames permitted spoken
  cases alike with
  | int places => exact Steps.pure lawful fun _ _ => .number _
  | float places => exact Steps.pure lawful fun _ _ => .number _
  | text places => exact Steps.pure lawful fun _ _ => .text _
  | list places alike => exact evaluators.list lawful frames alike permitted spoken
  | sequence places alike => exact evaluators.list lawful frames alike permitted spoken
  | reference places =>
    exact Steps.lift (frames.reference lawful places (spoken _ List.mem_cons_self))
  | assign places alike => exact evaluators.assign lawful frames alike permitted spoken.tail
  | binary places lefts rights =>
    exact evaluators.binary lawful frames places lefts rights permitted spoken
  | unary places alike => exact evaluators.unary lawful frames places alike permitted spoken
  | conditional places alike => exact evaluators.choices lawful frames alike permitted spoken
  | forLoop places firsts bounds steps bodies =>
    exact evaluators.forLoop lawful frames firsts bounds steps bodies permitted spoken.tail
      outlasts
  | whileLoop places conditions bodies =>
    exact evaluators.whileLoop lawful frames conditions bodies permitted spoken outlasts
  | function places bodies => exact frames.function lawful bodies permitted spoken.right
  | call places callees alike =>
    exact evaluators.call lawful libraries frames places callees alike permitted spoken
  | returning places alike => exact evaluators.returning lawful frames alike permitted spoken
  | continuing places => exact Steps.leave lawful fun _ _ => .continued places
  | breaking places => exact Steps.leave lawful fun _ _ => .broke places

/-- Evaluation does the same with alike constructs as long as the first one is not cut off. -/
theorem Lawful.evaluateWithin {library library' : Library} {depth depth' : Nat}
    (lawful : coupling.Lawful) (libraries : coupling.Libraries library library')
    (outlasts : coupling.Outlasts depth depth') :
    coupling.Evaluators (evaluateWith library depth) (evaluateWith library' depth') := by
  -- What is nested too deep is cut off.
  induction depth generalizing depth' with
  | zero =>
    intro world roots node node' frame frame' alike frames permitted spoken
    exact outlasts.cut (fun depth' => Scriptlet.evaluateWith library' depth' node' frame')
      fun _ => rfl
  | succ depth ih =>
    obtain ⟨depth', rfl, further⟩ := outlasts.succ
    exact (ih further).construct lawful libraries further

/-- Evaluation of the same depth does the same with alike constructs. -/
theorem Lawful.evaluateWith {library library' : Library} (lawful : coupling.Lawful)
    (libraries : coupling.Libraries library library') (depth : Nat) :
    coupling.Evaluators (evaluateWith library depth) (evaluateWith library' depth) :=
  lawful.evaluateWithin libraries (.inl rfl)

end Coupling

end Scriptlet
