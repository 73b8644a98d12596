import Scriptlet.Proofs.Eval.Coupling

/-! Steps that go on alike from corresponding states, and how they are put together. -/

namespace Scriptlet

namespace Coupling

variable {ε ε' α α' β β' : Type}

/-- Two outcomes that are alike in a world that has grown, or a first one that was cut off. -/
inductive Outcomes (coupling : Coupling) (world : coupling.World)
    (exits : coupling.World → ε → ε' → Prop) (results : coupling.World → α → α' → Prop) :
    Outcome ε α → Outcome ε' α' → Prop where
  | value {later : coupling.World} {result : α} {result' : α'} {state state' : State}
    (grown : coupling.grows world later) (alike : results later result result')
    (states : coupling.States later state state') :
    Outcomes coupling world exits results (.value result state) (.value result' state')
  | exit {later : coupling.World} {cause : ε} {cause' : ε'} {state state' : State}
    (grown : coupling.grows world later) (alike : exits later cause cause')
    (states : coupling.States later state state') :
    Outcomes coupling world exits results (.exit cause state) (.exit cause' state')
  | unfinished : Outcomes coupling world exits results .unfinished .unfinished
  | cut (lax : coupling.lax) (outcome : Outcome ε' α') :
    Outcomes coupling world exits results .unfinished outcome

/-- Two steps that end alike whenever they start alike, in a world or any that it grows to. -/
def Steps (coupling : Coupling) (world : coupling.World) (exits : coupling.World → ε → ε' → Prop)
    (results : coupling.World → α → α' → Prop) (step : Action ε α) (step' : Action ε' α') : Prop :=
  ∀ later, coupling.grows world later → ∀ state state', coupling.States later state state' →
    coupling.Outcomes later exits results (step state) (step' state')

/-- Two rounds of loops that end alike. -/
inductive Rounds (coupling : Coupling) (world : coupling.World) :
    Action.Round → Action.Round → Prop where
  | next {yielded yielded' : Option Value}
    (alike : Option.Rel (coupling.Values world) yielded yielded') :
    Rounds coupling world (.next yielded) (.next yielded')
  | last : Rounds coupling world .last .last

variable {coupling : Coupling} {world later : coupling.World}
  {exits : coupling.World → ε → ε' → Prop} {results : coupling.World → α → α' → Prop}
  {outcomes : coupling.World → β → β' → Prop} {roots : CallChain → CallChain → Prop}

/-- Outcomes that are alike from a grown world on are so from the world before. -/
theorem Outcomes.from_earlier {outcome : Outcome ε α} {outcome' : Outcome ε' α'}
    (lawful : coupling.Lawful) (grown : coupling.grows world later)
    (alike : coupling.Outcomes later exits results outcome outcome') :
    coupling.Outcomes world exits results outcome outcome' := by
  -- The world of the outcome has grown from both.
  cases alike with
  | value more alike states => exact .value (lawful.grows_trans grown more) alike states
  | exit more alike states => exact .exit (lawful.grows_trans grown more) alike states
  | unfinished => exact .unfinished
  | cut lax => exact .cut lax _

/-- Where the first of two steps has no value, both steps end as it does. -/
theorem Outcomes.bind_of_no_value {first : Action ε α} {first' : Action ε' α'}
    {next : α → Action ε β} {next' : α' → Action ε' β'} {state state' : State}
    (alike : coupling.Outcomes world exits results (first state) (first' state'))
    (early : ∀ result after, first' state' ≠ .value result after) :
    coupling.Outcomes world exits outcomes ((first >>= next) state) ((first' >>= next') state') := by
  -- An early exit is the exit of both steps.
  rw [Action.bind_apply, Action.bind_apply]
  generalize first state = outcome, first' state' = outcome' at alike early
  cases alike with
  | value more same after => exact absurd rfl (early _ _)
  | exit more same after => exact .exit more same after
  | unfinished => exact .unfinished
  | cut lax => exact .cut lax _

/-- The ends of functions or programs whose bodies have alike outcomes. -/
theorem Outcomes.settle {frame frame' : Frame} {body body' : Action Exit Value}
    {state state' : State} (frames : coupling.Frames world roots frame frame')
    (bodies : coupling.Outcomes later (coupling.Exits roots) coupling.Values (body state)
      (body' state')) :
    coupling.Outcomes later (coupling.Errors roots) coupling.Values
      (Action.settle frame body state) (Action.settle frame' body' state') := by
  -- A returned value is a value, and a signal fails at related places.
  unfold Action.settle
  generalize body state = outcome, body' state' = outcome' at bodies
  cases bodies with
  | value more alike after => exact .value more alike after
  | unfinished => exact .unfinished
  | cut lax => exact .cut lax _
  | exit more alike after =>
    cases alike with
    | failed alike => exact .exit more alike after
    | returned alike => exact .value more alike after
    | broke places => exact .exit more (frames.error places (.same _)) after
    | continued places => exact .exit more (frames.error places (.same _)) after

namespace Steps

/-- Steps go on to be alike. -/
theorem mono {step : Action ε α} {step' : Action ε' α'} (lawful : coupling.Lawful)
    (grown : coupling.grows world later)
    (alike : coupling.Steps world exits results step step') :
    coupling.Steps later exits results step step' :=
  fun last more => alike last (lawful.grows_trans grown more)

/-- Results that correspond from now on need no step. -/
theorem pure {result : α} {result' : α'} (lawful : coupling.Lawful)
    (alike : ∀ later, coupling.grows world later → results later result result') :
    coupling.Steps world exits results (pure result) (pure result') :=
  fun later grown _ _ states => .value (lawful.grows_refl later) (alike later grown) states

/-- Two steps in a row; the second one starts in the world that the first one ended in. -/
theorem bind {first : Action ε α} {first' : Action ε' α'} {next : α → Action ε β}
    {next' : α' → Action ε' β'} (lawful : coupling.Lawful)
    (firsts : coupling.Steps world exits results first first')
    (nexts : ∀ later, coupling.grows world later → ∀ result result',
      results later result result' →
      coupling.Steps later exits outcomes (next result) (next' result')) :
    coupling.Steps world exits outcomes (first >>= next) (first' >>= next') := by
  -- Of the first steps only values lead on to the second ones.
  intro later grown state state' states
  have ended := firsts later grown state state' states
  rw [Action.bind_apply, Action.bind_apply]
  generalize first state = outcome, first' state' = outcome' at ended
  cases ended with
  | @value last result result' after after' more alike states =>
    have second := nexts last (lawful.grows_trans grown more) result result' alike
    exact (second last (lawful.grows_refl last) after after' states).from_earlier lawful more
  | exit more alike states => exact .exit more alike states
  | unfinished => exact .unfinished
  | cut lax => exact .cut lax _

/-- Early exits that correspond from now on. -/
theorem leave {cause : ε} {cause' : ε'} (lawful : coupling.Lawful)
    (alike : ∀ later, coupling.grows world later → exits later cause cause') :
    coupling.Steps world exits results (Action.leave cause) (Action.leave cause') :=
  fun later grown _ _ states => .exit (lawful.grows_refl later) (alike later grown) states

/-- Failures of alike frames for alike causes. -/
theorem fail {frame frame' : Frame} {span span' : Span} {cause cause' : EvalError.Cause}
    (lawful : coupling.Lawful) (frames : coupling.Frames world roots frame frame')
    (places : coupling.spans span span') (causes : cause.Similar coupling.spans cause') :
    coupling.Steps world (coupling.Errors roots) results (Action.fail frame cause span)
      (Action.fail frame' cause' span') :=
  leave lawful fun _ _ => frames.error places causes

/-- Steps that are cut off. -/
theorem cutOff : coupling.Steps world exits results Action.cutOff Action.cutOff :=
  fun _ _ _ _ _ => .unfinished

/-- Looking at corresponding stores shows what corresponds. -/
theorem look {view : Store → α} {view' : Store → α'} (lawful : coupling.Lawful)
    (views : ∀ later, coupling.grows world later → ∀ store store',
      coupling.stores later store store' → results later (view store) (view' store')) :
    coupling.Steps world exits results (Action.look view) (Action.look view') :=
  fun later grown _ _ states =>
    .value (lawful.grows_refl later) (views later grown _ _ states.stores) states

/-- Changes of stores that correspond in a world that has grown. -/
theorem change {update update' : Store → Store}
    (updates : ∀ later, coupling.grows world later → ∀ store store',
      coupling.stores later store store' →
      ∃ last, coupling.grows later last ∧ coupling.stores last (update store) (update' store')) :
    coupling.Steps world exits (fun _ _ _ => True) (Action.change update)
      (Action.change update') := by
  -- The new world is the one that the changed stores correspond in.
  intro later grown state state' states
  obtain ⟨last, more, stores⟩ := updates later grown _ _ states.stores
  exact .value more trivial ⟨stores, states.hosts⟩

/-- Additions to stores that correspond in a world that has grown. -/
theorem make {update : Store → α × Store} {update' : Store → α' × Store}
    (updates : ∀ later, coupling.grows world later → ∀ store store',
      coupling.stores later store store' →
      ∃ last, coupling.grows later last ∧ results last (update store).1 (update' store').1 ∧
        coupling.stores last (update store).2 (update' store').2) :
    coupling.Steps world exits results (Action.make update) (Action.make update') := by
  -- The new world is the one that the additions correspond in.
  intro later grown state state' states
  obtain ⟨last, more, alike, stores⟩ := updates later grown _ _ states.stores
  exact .value more alike ⟨stores, states.hosts⟩

/-- Steps whose early exits are told in other terms. -/
theorem mapExit {γ γ' : Type} {told : ε → γ} {told' : ε' → γ'}
    {tellings : coupling.World → γ → γ' → Prop} {step : Action ε α} {step' : Action ε' α'}
    (alike : coupling.Steps world exits results step step')
    (tells : ∀ later cause cause', exits later cause cause' →
      tellings later (told cause) (told' cause')) :
    coupling.Steps world tellings results (step.mapExit told) (step'.mapExit told') := by
  -- Only early exits change, and their states stay.
  intro later grown state state' states
  have ended := alike later grown state state' states
  unfold Action.mapExit
  generalize step state = outcome, step' state' = outcome' at ended
  cases ended with
  | value more same after => exact .value more same after
  | exit more same after => exact .exit more (tells _ _ _ same) after
  | unfinished => exact .unfinished
  | cut lax => exact .cut lax _

/-- Steps that can only fail, as steps of an evaluation. -/
theorem lift {step : Action EvalError α} {step' : Action EvalError α'}
    (alike : coupling.Steps world (coupling.Errors roots) results step step') :
    coupling.Steps world (coupling.Exits roots) results (liftM step : Action Exit α)
      (liftM step' : Action Exit α') :=
  mapExit alike fun _ _ _ same => .failed same

/-- New lists of corresponding elements. -/
theorem makeList {elements elements' : Array Value} (lawful : coupling.Lawful)
    (alike : coupling.Rows world elements.toList elements'.toList) :
    coupling.Steps world exits coupling.Values (Action.makeList elements)
      (Action.makeList elements') := by
  -- The places of the new lists correspond in a world that has grown.
  unfold Action.makeList
  have made : coupling.Steps world exits coupling.lists (Action.make (Store.addList elements))
      (Action.make (Store.addList elements')) :=
    make fun later grown store store' stores =>
      lawful.addList stores (Rows.mono lawful grown alike)
  apply bind lawful made
  intro later grown list list' places
  exact pure lawful fun last more => .list (lawful.lists_mono more places)

/-- Texts of corresponding values. -/
theorem textOf {value value' : Value} (lawful : coupling.Lawful)
    (alike : coupling.Values world value value') :
    coupling.Steps world exits (fun _ text text' => text = text') (Action.textOf value)
      (Action.textOf value') := by
  -- Without a text both are cut off.
  unfold Action.textOf
  have seen : coupling.Steps world exits (fun _ (text text' : Option String) => text = text')
      (Action.look (·.text? value)) (Action.look (·.text? value')) :=
    look lawful fun later grown store store' stores =>
      lawful.text stores (alike.mono lawful grown)
  apply bind lawful seen
  rintro later grown text text' rfl
  cases text with
  | none => exact cutOff
  | some text => exact pure lawful fun _ _ => rfl

/-- The same deed, done to the same host, whose scripts it leaves as they are. -/
theorem perform {frame frame' : Frame} {span span' : Span} {deed : Host → Except String Host}
    (lawful : coupling.Lawful) (frames : coupling.Frames world roots frame frame')
    (places : coupling.spans span span')
    (sameScripts : ∀ host host', deed host = .ok host' → host'.scripts = host.scripts) :
    coupling.Steps world (coupling.Errors roots) (fun _ _ _ => True)
      (Action.perform frame span deed) (Action.perform frame' span' deed) := by
  -- Equal hosts break down together, and are equal after the deed.
  intro later grown ⟨store, host⟩ ⟨store', host'⟩ ⟨stores, hosts⟩
  obtain rfl : host = host' := lawful.hosts_eq hosts
  have grown := lawful.grows_refl later
  simp only [Action.perform]
  cases done : deed host with
  | ok host' => exact .value grown trivial ⟨stores, lawful.hosts_after hosts (sameScripts _ _ done)⟩
  | error reason => exact .exit grown (frames.error places (.same _)) ⟨stores, hosts⟩

/-- The same line, read from the same host. -/
theorem readLine {frame frame' : Frame} {span span' : Span} (lawful : coupling.Lawful)
    (frames : coupling.Frames world roots frame frame') (places : coupling.spans span span') :
    coupling.Steps world (coupling.Errors roots) (fun _ line line' => line = line')
      (Action.readLine frame span) (Action.readLine frame' span') := by
  -- A line, the end of the input and a breakdown are the same for equal hosts.
  intro later grown ⟨store, host⟩ ⟨store', host'⟩ ⟨stores, hosts⟩
  obtain rfl : host = host' := lawful.hosts_eq hosts
  have grown := lawful.grows_refl later
  have hostsAfter := lawful.hosts_after hosts host.readLine_scripts
  simp only [Action.readLine]
  rcases read : host.readLine with ⟨reason | _ | line, after⟩
  all_goals
    rw [read] at hostsAfter
  · exact .exit grown (frames.error places (.same _)) ⟨stores, hostsAfter⟩
  · exact .exit grown (frames.error places (.same _)) ⟨stores, hostsAfter⟩
  · exact .value grown rfl ⟨stores, hostsAfter⟩

/-- Equal hosts have as many lines left. -/
theorem linesLeft (lawful : coupling.Lawful) :
    coupling.Steps world exits (fun _ (count count' : Nat) => count = count') Action.linesLeft
      Action.linesLeft := by
  -- Nothing is read yet.
  intro later grown state state' states
  exact .value (lawful.grows_refl later) (by rw [lawful.hosts_eq states.hosts]) states

/-- Equal hosts have as much room. -/
theorem memory (lawful : coupling.Lawful) :
    coupling.Steps world exits (fun _ (memory memory' : Memory) => memory = memory') Action.memory
      Action.memory := by
  -- Nothing takes up room.
  intro later grown state state' states
  exact .value (lawful.grows_refl later) (by rw [lawful.hosts_eq states.hosts]) states

/-- The same script, loaded from the same host; what it speaks of may be spoken of. -/
theorem load (name : String) (lawful : coupling.Lawful) :
    coupling.Steps world exits (fun _ (script script' : Except String String) =>
        script = script' ∧ ∀ text program, script = .ok text →
          ({ name, text } : Source).program = .ok program → coupling.Speaks program.names)
      (Action.load name) (Action.load name) := by
  -- Loading leaves the same trace in both hosts.
  intro later grown ⟨store, host⟩ ⟨store', host'⟩ ⟨stores, hosts⟩
  obtain rfl : host = host' := lawful.hosts_eq hosts
  exact .value (lawful.grows_refl later)
    ⟨rfl, fun _ _ loaded read => lawful.script hosts loaded read⟩
    ⟨stores, lawful.hosts_after hosts rfl⟩

/-- The ends of alike functions or programs. -/
theorem settle {frame frame' : Frame} {body body' : Action Exit Value}
    (frames : coupling.Frames world roots frame frame')
    (bodies : coupling.Steps world (coupling.Exits roots) coupling.Values body body') :
    coupling.Steps world (coupling.Errors roots) coupling.Values (Action.settle frame body)
      (Action.settle frame' body') :=
  fun later grown state state' states => (bodies later grown state state' states).settle frames

/-- Rounds of loops with alike bodies. -/
theorem round {body body' : Action Exit Value}
    (bodies : coupling.Steps world (coupling.Exits roots) coupling.Values body body') :
    coupling.Steps world (coupling.Exits roots) coupling.Rounds (Action.round body)
      (Action.round body') := by
  -- The loop's own signals end both rounds, all other exits go on.
  intro later grown state state' states
  have ended := bodies later grown state state' states
  unfold Action.round
  generalize body state = outcome, body' state' = outcome' at ended
  cases ended with
  | value more alike after => exact .value more (.next (.some alike)) after
  | unfinished => exact .unfinished
  | cut lax => exact .cut lax _
  | exit more alike after =>
    cases alike with
    | failed alike => exact .exit more (.failed alike) after
    | returned alike => exact .exit more (.returned alike) after
    | broke places => exact .value more .last after
    | continued places => exact .value more (.next .none) after

end Steps

end Coupling

end Scriptlet
