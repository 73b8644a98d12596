import Scriptlet.Eval
import Scriptlet.Proofs.Eval.Targets
import Scriptlet.Proofs.Syntax.Similarity

/-! Two runs beside each other: what it means that their values, errors and states correspond. -/

namespace Scriptlet

/-- Two chains of calls with the same names at related places, on top of related chains. -/
inductive CallChain.Similar (spans : Span → Span → Prop) (roots : CallChain → CallChain → Prop) :
    CallChain → CallChain → Prop where
  | root {chain chain' : CallChain} (alike : roots chain chain') :
    CallChain.Similar spans roots chain chain'
  | call {name : String} {site site' : Span} {caller caller' : CallChain}
    (places : spans site site') (callers : CallChain.Similar spans roots caller caller') :
    CallChain.Similar spans roots (.call name site caller) (.call name site' caller')

/-- The chains of two programs that have made no call. -/
def CallChain.Programs (chain chain' : CallChain) : Prop :=
  chain = .program ∧ chain' = .program

/--
Two causes that are the same, up to places: the report of a script that failed shows places, so it
may be the report of a similar error.
-/
inductive EvalError.Cause.Similar (spans : Span → Span → Prop) :
    EvalError.Cause → EvalError.Cause → Prop where
  | same (cause : EvalError.Cause) : EvalError.Cause.Similar spans cause cause
  | scriptFailed {name : String} {cause cause' : EvalError.Cause} {span span' : Span}
    {chain chain' : CallChain} (causes : EvalError.Cause.Similar spans cause cause')
    (places : spans span span') (chains : chain.Similar spans CallChain.Programs chain') :
    EvalError.Cause.Similar spans (.scriptFailed name (EvalError.report ⟨cause, span, chain⟩))
      (.scriptFailed name (EvalError.report ⟨cause', span', chain'⟩))

/-- Two errors that are the same, up to places. -/
structure EvalError.Similar (spans : Span → Span → Prop) (roots : CallChain → CallChain → Prop)
    (error error' : EvalError) : Prop where
  causes : error.cause.Similar spans error'.cause
  places : spans error.span error'.span
  chains : error.chain.Similar spans roots error'.chain

/-- Two values that are the same, up to the places of lists and functions. -/
inductive Value.Similar (lists : ListId → ListId → Prop) (closures : ClosureId → ClosureId → Prop) :
    Value → Value → Prop where
  | number (number : Number) : Value.Similar lists closures (.number number) (.number number)
  | text (text : String) : Value.Similar lists closures (.text text) (.text text)
  | list {list list' : ListId} (places : lists list list') :
    Value.Similar lists closures (.list list) (.list list')
  | closure {closure closure' : ClosureId} (places : closures closure closure') :
    Value.Similar lists closures (.closure closure) (.closure closure')
  | builtin (builtin : Builtin) : Value.Similar lists closures (.builtin builtin) (.builtin builtin)

/-- Values that are the same up to related places are so up to places in a weaker relation. -/
theorem Value.Similar.imp {lists lists' : ListId → ListId → Prop}
    {closures closures' : ClosureId → ClosureId → Prop} {value value' : Value}
    (weakenLists : ∀ list list', lists list list' → lists' list list')
    (weakenClosures : ∀ closure closure', closures closure closure' → closures' closure closure')
    (alike : value.Similar lists closures value') : value.Similar lists' closures' value' := by
  -- Only lists and functions have places.
  cases alike with
  | number number => exact .number number
  | text text => exact .text text
  | list places => exact .list (weakenLists _ _ places)
  | closure places => exact .closure (weakenClosures _ _ places)
  | builtin builtin => exact .builtin builtin

/-- Two functions that are built alike, in related scopes. -/
structure Closure.Similar (spans : Span → Span → Prop) (scopes : ScopeId → ScopeId → Prop)
    (closure closure' : Closure) : Prop where
  name : closure.name = closure'.name
  parameters : closure.parameters = closure'.parameters
  form : closure.form = closure'.form
  body : closure.body.Similar spans closure'.body
  scope : scopes closure.scope closure'.scope

/-- Functions that are built alike have the same name in reports. -/
theorem Closure.Similar.label {spans : Span → Span → Prop} {scopes : ScopeId → ScopeId → Prop}
    {closure closure' : Closure} (alike : closure.Similar spans scopes closure') :
    closure.label = closure'.label := by
  unfold Closure.label
  rw [alike.name]

/-- Functions that are built alike look the same in reports. -/
theorem Closure.Similar.text {spans : Span → Span → Prop} {scopes : ScopeId → ScopeId → Prop}
    {closure closure' : Closure} (alike : closure.Similar spans scopes closure') :
    closure.text = closure'.text := by
  -- Only the name shows.
  unfold Closure.text
  rw [alike.label]

/--
How the places in the stores of two runs correspond. It depends on a world, which only grows while
the runs go on. The first run may only define the permitted variables, both may only speak of some
names, and where the coupling is lax the first one may be cut off before the second one.
-/
structure Coupling where
  World : Type
  grows : World → World → Prop
  spans : Span → Span → Prop
  scopes : World → ScopeId → ScopeId → Prop
  lists : World → ListId → ListId → Prop
  closures : World → ClosureId → ClosureId → Prop
  stores : World → Store → Store → Prop
  permits : ScopeId → String → Prop
  lax : Prop
  speaks : String → Prop := fun _ => True
  hosts : Host → Host → Prop := (· = ·)

namespace Coupling

/-- Names that may all be spoken of. -/
def Speaks (coupling : Coupling) (names : List String) : Prop :=
  ∀ name ∈ names, coupling.speaks name

/-- Two values that are the same, up to the places of lists and functions. -/
abbrev Values (coupling : Coupling) (world : coupling.World) : Value → Value → Prop :=
  Value.Similar (coupling.lists world) (coupling.closures world)

/-- Two rows of corresponding values. -/
abbrev Rows (coupling : Coupling) (world : coupling.World) : List Value → List Value → Prop :=
  List.Forall₂ (coupling.Values world)

/-- Two functions that are built alike in corresponding scopes. -/
abbrev Functions (coupling : Coupling) (world : coupling.World) : Closure → Closure → Prop :=
  Closure.Similar coupling.spans (coupling.scopes world)

/-- Two frames in corresponding scopes. -/
structure Frames (coupling : Coupling) (world : coupling.World)
    (roots : CallChain → CallChain → Prop) (frame frame' : Frame) : Prop where
  scope : coupling.scopes world frame.scope frame'.scope
  program : coupling.scopes world frame.program frame'.program
  chain : frame.chain.Similar coupling.spans roots frame'.chain

/-- Two corresponding states of runs beside corresponding hosts. -/
structure States (coupling : Coupling) (world : coupling.World) (state state' : State) :
    Prop where
  stores : coupling.stores world state.store state'.store
  hosts : coupling.hosts state.host state'.host

/-- Two early exits for the same reason. -/
inductive Exits (coupling : Coupling) (roots : CallChain → CallChain → Prop)
    (world : coupling.World) : Exit → Exit → Prop where
  | failed {error error' : EvalError} (alike : error.Similar coupling.spans roots error') :
    Exits coupling roots world (.failed error) (.failed error')
  | returned {value value' : Value} (alike : coupling.Values world value value') :
    Exits coupling roots world (.returned value) (.returned value')
  | broke {site site' : Span} (places : coupling.spans site site') :
    Exits coupling roots world (.broke site) (.broke site')
  | continued {site site' : Span} (places : coupling.spans site site') :
    Exits coupling roots world (.continued site) (.continued site')

/-- Two errors for the same reason, in any world. -/
def Errors (coupling : Coupling) (roots : CallChain → CallChain → Prop) (_ : coupling.World)
    (error error' : EvalError) : Prop :=
  error.Similar coupling.spans roots error'

/-- What a coupling has to promise so that runs that start alike go on alike. -/
structure Lawful (coupling : Coupling) : Prop where
  grows_refl (world : coupling.World) : coupling.grows world world
  grows_trans {world later last : coupling.World} (first : coupling.grows world later)
    (second : coupling.grows later last) : coupling.grows world last
  spans_refl (span : Span) : coupling.spans span span
  scopes_mono {world later : coupling.World} {scope scope' : ScopeId}
    (grown : coupling.grows world later) (places : coupling.scopes world scope scope') :
    coupling.scopes later scope scope'
  lists_mono {world later : coupling.World} {list list' : ListId}
    (grown : coupling.grows world later) (places : coupling.lists world list list') :
    coupling.lists later list list'
  closures_mono {world later : coupling.World} {closure closure' : ClosureId}
    (grown : coupling.grows world later) (places : coupling.closures world closure closure') :
    coupling.closures later closure closure'
  elements {world : coupling.World} {store store' : Store} {list list' : ListId}
    (stores : coupling.stores world store store') (places : coupling.lists world list list') :
    coupling.Rows world (store.elements list).toList (store'.elements list').toList
  text {world : coupling.World} {store store' : Store} {value value' : Value}
    (stores : coupling.stores world store store') (alike : coupling.Values world value value') :
    store.text? value = store'.text? value'
  closure? {world : coupling.World} {store store' : Store} {closure closure' : ClosureId}
    (stores : coupling.stores world store store')
    (places : coupling.closures world closure closure') :
    Option.Rel (coupling.Functions world) (store.closure? closure) (store'.closure? closure')
  function {world : coupling.World} {store store' : Store} {place place' : ClosureId}
    {closure : Closure} (stores : coupling.stores world store store')
    (places : coupling.closures world place place') (found : store.closure? place = some closure) :
    coupling.Speaks closure.body.names
  lookup {world : coupling.World} {store store' : Store} {scope scope' : ScopeId} {name : String}
    (spoken : coupling.speaks name) (stores : coupling.stores world store store')
    (places : coupling.scopes world scope scope') :
    Option.Rel (coupling.Values world) (store.lookup scope name) (store'.lookup scope' name)
  define {world : coupling.World} {store store' : Store} {scope scope' : ScopeId} {name : String}
    {value value' : Value} (stores : coupling.stores world store store')
    (places : coupling.scopes world scope scope') (permitted : coupling.permits scope name)
    (alike : coupling.Values world value value') :
    coupling.stores world (store.define scope name value) (store'.define scope' name value')
  addList {world : coupling.World} {store store' : Store} {elements elements' : Array Value}
    (stores : coupling.stores world store store')
    (alike : coupling.Rows world elements.toList elements'.toList) :
    ∃ later, coupling.grows world later ∧
      coupling.lists later (store.addList elements).1 (store'.addList elements').1 ∧
      coupling.stores later (store.addList elements).2 (store'.addList elements').2
  addClosure {world : coupling.World} {store store' : Store} {closure closure' : Closure}
    (stores : coupling.stores world store store')
    (alike : coupling.Functions world closure closure')
    (spoken : coupling.Speaks closure.body.names) :
    ∃ later, coupling.grows world later ∧
      coupling.closures later (store.addClosure closure).1 (store'.addClosure closure').1 ∧
      coupling.stores later (store.addClosure closure).2 (store'.addClosure closure').2
  enclose {world : coupling.World} {store store' : Store} {scope scope' : ScopeId}
    (stores : coupling.stores world store store') (places : coupling.scopes world scope scope') :
    ∃ later, coupling.grows world later ∧
      coupling.scopes later (store.enclose scope).1 (store'.enclose scope').1 ∧
      coupling.stores later (store.enclose scope).2 (store'.enclose scope').2 ∧
      ∀ name, coupling.permits (store.enclose scope).1 name
  hosts_eq {host host' : Host} (alike : coupling.hosts host host') : host = host'
  hosts_after {host after : Host} (alike : coupling.hosts host host)
    (same : after.scripts = host.scripts) : coupling.hosts after after
  script {host : Host} {name text : String} {program : Node} (alike : coupling.hosts host host)
    (loaded : host.scripts name = .ok text)
    (read : ({ name, text } : Source).program = .ok program) : coupling.Speaks program.names

/-- A coupling that also outlives changes of lists that correspond. -/
def AllowsChanges (coupling : Coupling) : Prop :=
  ∀ {world : coupling.World} {store store' : Store} {list list' : ListId}
    {change change' : Array Value → Array Value},
    coupling.stores world store store' → coupling.lists world list list' →
    (∀ elements elements', coupling.Rows world elements.toList elements'.toList →
      coupling.Rows world (change elements).toList (change' elements').toList) →
    coupling.stores world (store.modifyList list change) (store'.modifyList list' change')

variable {coupling : Coupling} {world later : coupling.World}
  {roots : CallChain → CallChain → Prop}

/-- Names in front of others may be spoken of when all of them may be. -/
theorem Speaks.left {names others : List String} (spoken : coupling.Speaks (names ++ others)) :
    coupling.Speaks names :=
  fun name member => spoken name (List.mem_append_left _ member)

/-- Names behind others may be spoken of when all of them may be. -/
theorem Speaks.right {names others : List String} (spoken : coupling.Speaks (names ++ others)) :
    coupling.Speaks others :=
  fun name member => spoken name (List.mem_append_right _ member)

/-- The names behind the first one may be spoken of when all of them may be. -/
theorem Speaks.tail {name : String} {names : List String}
    (spoken : coupling.Speaks (name :: names)) : coupling.Speaks names :=
  fun other member => spoken other (List.mem_cons_of_mem _ member)

/-- Two values without a place correspond when they are the same. -/
theorem Values.ofBool (condition : Bool) :
    coupling.Values world (.ofBool condition) (.ofBool condition) :=
  .number _

/-- The absence of a value corresponds to itself. -/
theorem Values.null : coupling.Values world .null .null :=
  .number _

/-- What corresponds goes on to do so. -/
theorem Values.mono {value value' : Value} (lawful : coupling.Lawful)
    (grown : coupling.grows world later) (alike : coupling.Values world value value') :
    coupling.Values later value value' :=
  alike.imp (fun _ _ => lawful.lists_mono grown) fun _ _ => lawful.closures_mono grown

/-- Rows of values go on to correspond. -/
theorem Rows.mono {row row' : List Value} (lawful : coupling.Lawful)
    (grown : coupling.grows world later) (alike : coupling.Rows world row row') :
    coupling.Rows later row row' :=
  alike.imp fun _ _ same => same.mono lawful grown

/-- Frames go on to correspond. -/
theorem Frames.mono {frame frame' : Frame} (lawful : coupling.Lawful)
    (grown : coupling.grows world later) (alike : coupling.Frames world roots frame frame') :
    coupling.Frames later roots frame frame' :=
  { scope := lawful.scopes_mono grown alike.scope
    program := lawful.scopes_mono grown alike.program
    chain := alike.chain }

/-- The frames of programs in corresponding scopes. -/
theorem Frames.ofProgram {globals globals' scope scope' : ScopeId}
    (places : coupling.scopes world scope scope') :
    coupling.Frames world CallChain.Programs (Frame.ofProgram globals scope)
      (Frame.ofProgram globals' scope') :=
  { scope := places, program := places, chain := .root ⟨rfl, rfl⟩ }

/-- Entering the same call keeps frames alike. -/
theorem Frames.enter {frame frame' : Frame} {site site' : Span} (name : String)
    (alike : coupling.Frames world roots frame frame') (places : coupling.spans site site') :
    coupling.Frames world roots (frame.enter name site) (frame'.enter name site') :=
  { scope := alike.scope, program := alike.program, chain := .call places alike.chain }

/-- Frames in new scopes. -/
theorem Frames.within {frame frame' : Frame} {scope scope' : ScopeId}
    (alike : coupling.Frames world roots frame frame')
    (places : coupling.scopes world scope scope') :
    coupling.Frames world roots { frame with scope } { frame' with scope := scope' } :=
  { scope := places, program := alike.program, chain := alike.chain }

/-- Errors of alike frames for alike causes. -/
theorem Frames.error {frame frame' : Frame} {span span' : Span} {cause cause' : EvalError.Cause}
    (alike : coupling.Frames world roots frame frame') (places : coupling.spans span span')
    (causes : cause.Similar coupling.spans cause') :
    coupling.Errors roots world (frame.error cause span) (frame'.error cause' span') :=
  { causes, places, chains := alike.chain }

end Coupling

end Scriptlet
