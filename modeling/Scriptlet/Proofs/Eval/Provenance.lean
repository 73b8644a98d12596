import Scriptlet.Proofs.Eval.Waypoint

/-!
Where code comes from: all that a run executes is written in its program or in a script that it can
load, and every error is told at a construct of the body that was being executed.
-/

namespace Scriptlet

namespace Node

/-- The body of a function. -/
def body? : Node → Option Node
  | .function _ _ _ body _ => some body
  | _ => none

/-- The bodies that are executed on their own: the program's one, and those of all its functions. -/
def bodies (program : Node) : List Node :=
  program :: program.all.filterMap body?

/-- The ranges at which a program raises a signal outside of every loop of the same body. -/
def strays (signal : LoopSignal) (program : Node) : List Span :=
  program.bodies.flatMap (loose signal)

/-- The body of a program is all of it. -/
@[simp] theorem mem_bodies_self (program : Node) : program ∈ program.bodies :=
  List.mem_cons_self

/-- Functions anywhere in a program have bodies of their own. -/
theorem mem_bodies_of_function {program body : Node} {span : Span} {name : Option String}
    {parameters : List String} {form : BodyForm}
    (inside : .function span name parameters body form ∈ program.all) : body ∈ program.bodies :=
  List.mem_cons_of_mem program (List.mem_filterMap.mpr ⟨_, inside, rfl⟩)

/-- Every body of a program is part of its text. -/
theorem bodies_subset_all (program : Node) : program.bodies ⊆ program.all := by
  intro body member
  rcases List.mem_cons.mp member with rfl | member
  · exact body.mem_constructs_self
  · obtain ⟨function, inside, owned⟩ := List.mem_filterMap.mp member
    cases function with
    | function => exact Option.some.inj owned ▸ body_mem_all inside
    | _ => cases owned

end Node

/-- The programs that may be executed: the first one, and all scripts that can be loaded. -/
inductive Runnable (scripts : String → Except String String) (main : Node) : Node → Prop where
  | main : Runnable scripts main main
  | script {name text : String} {program : Node} (loaded : scripts name = .ok text)
    (parsed : ({ name, text } : Source).program = .ok program) : Runnable scripts main program

/-- A function with this name and body is written in a program that may be executed. -/
def Written (scripts : String → Except String String) (main : Node) (name : Option String)
    (body : Node) : Prop :=
  ∃ program span parameters form, Runnable scripts main program ∧
    .function span name parameters body form ∈ program.all

/--
The body that the innermost of some calls executes: a program's own one if there is no call, and else
that of a function with the name of the call, which is made in the body that the caller executes.
-/
inductive CallChain.Executes (written : Option String → Node → Prop) (program : Node) :
    CallChain → Node → Prop where
  | program : CallChain.Executes written program .program program
  | call {caller : CallChain} {outer callee body : Node} {arguments : List Node} {site : Span}
    {name : Option String} (calling : CallChain.Executes written program caller outer)
    (made : .call site callee arguments ∈ outer.own) (known : written name body) :
    CallChain.Executes written program (.call (name.getD "<anonymous>") site caller) body

/--
An error is told at a construct of the body that the innermost call executes, and at a word that no
loop of that body takes if it is about such a word; or it is told at the call of a built-in function,
which is made in the body that the caller executes.
-/
inductive EvalError.Located (written : Option String → Node → Prop) (program : Node) :
    EvalError → Prop where
  | body {cause : EvalError.Cause} {chain : CallChain} {body node : Node}
    (executed : chain.Executes written program body) (inside : node ∈ body.own)
    (stray : ∀ signal, cause = .outsideLoop signal → node.span ∈ body.loose signal) :
    EvalError.Located written program ⟨cause, node.span, chain⟩
  | builtin {cause : EvalError.Cause} {caller : CallChain} {body callee : Node}
    {arguments : List Node} {site : Span} (function : Builtin)
    (executed : caller.Executes written program body)
    (made : .call site callee arguments ∈ body.own)
    (ordinary : ∀ signal, cause ≠ .outsideLoop signal) :
    EvalError.Located written program ⟨cause, site, .call function.name site caller⟩

variable {scripts : String → Except String String} {main program : Node}

/-- Executed bodies are bodies of programs that may be executed. -/
theorem CallChain.Executes.mem_bodies {chain : CallChain} {body : Node}
    (executed : chain.Executes (Written scripts main) program body)
    (runnable : Runnable scripts main program) :
    ∃ origin, Runnable scripts main origin ∧ body ∈ origin.bodies := by
  cases executed with
  | program => exact ⟨program, runnable, program.mem_bodies_self⟩
  | call calling made known =>
    obtain ⟨origin, span, parameters, form, available, inside⟩ := known
    exact ⟨origin, available, Node.mem_bodies_of_function inside⟩

/-- An error about a word that only loops take is told at such a word outside of every loop. -/
theorem EvalError.Located.stray {error : EvalError} {signal : LoopSignal}
    (located : error.Located (Written scripts main) program)
    (runnable : Runnable scripts main program) (cause : error.cause = .outsideLoop signal) :
    ∃ origin, Runnable scripts main origin ∧ error.span ∈ origin.strays signal := by
  cases located with
  | body executed inside stray =>
    obtain ⟨origin, available, member⟩ := executed.mem_bodies runnable
    exact ⟨origin, available, List.mem_flatMap.mpr ⟨_, member, stray signal cause⟩⟩
  | builtin function executed made ordinary => exact absurd cause (ordinary signal)

/-- All functions of a store are written in programs that may be executed. -/
def Store.WrittenIn (scripts : String → Except String String) (main : Node) (store : Store) :
    Prop :=
  ∀ ⦃place closure⦄, store.closure? place = some closure →
    Written scripts main closure.name closure.body

/-- All code is written in programs that may be executed, and errors are told where they arise. -/
def Policy.written (scripts : String → Except String String) (main : Node) : Policy where
  scripts := scripts
  holds := Store.WrittenIn scripts main
  functions := fun closure => Written scripts main closure.name closure.body
  executes := fun program body frame =>
    Runnable scripts main program ∧ frame.chain.Executes (Written scripts main) program body
  errors := EvalError.Located (Written scripts main)

/-- No ordinary cause is about a word that only loops take. -/
theorem EvalError.Cause.ordinary_ne {cause : EvalError.Cause} (ordinary : cause.ordinary)
    (signal : LoopSignal) : cause ≠ .outsideLoop signal := by
  rintro rfl
  cases ordinary

/-- Copies are not functions. -/
theorem Store.closures_copy (value : Value) (store : Store) :
    (store.copy value).2.closures = store.closures := by
  cases value <;> rfl

/-- Every step only makes functions that are written in the body that it belongs to. -/
theorem Policy.written_lawful (scripts : String → Except String String) (main : Node) :
    (Policy.written scripts main).Lawful where
  define := fun _ _ _ held _ => held
  defineCopy := by
    intro store scope name value held place closure found
    have old : store.closure? place = some closure := by
      rw [← found]
      simp only [Store.closure?, Store.define, Store.closures_copy]
    exact held old
  addList := fun _ held => held
  modifyList := fun _ _ held => held
  enclose := fun _ held => held
  addClosure := by
    -- A function is the new one or one of the others.
    intro store closure held known place other found
    simp only [Store.closure?, Store.addClosure, Array.getElem?_push] at found
    split at found
    · exact Option.some.inj found ▸ known
    · exact held found
  closure? := fun held found => held found
  function := by
    -- What a body of a program is made of is part of that program.
    rintro program body inner frame span name parameters form ⟨runnable, executed⟩ inside
    obtain ⟨origin, available, member⟩ := executed.mem_bodies runnable
    exact ⟨origin, span, parameters, form, available,
      Node.mem_all_trans (origin.bodies_subset_all member) (Node.mem_all_of_mem_own inside)⟩
  call := fun _ executed inside known => ⟨executed.1, .call executed.2 inside known⟩
  script := fun _ _ loaded parsed => ⟨.script loaded parsed, .program⟩
  fails := fun executed inside ordinary =>
    .body executed.2 inside fun signal same => absurd same (EvalError.Cause.ordinary_ne ordinary signal)
  builtinFails := fun function executed inside ordinary =>
    .builtin function executed.2 inside (EvalError.Cause.ordinary_ne ordinary)
  escapes := by
    intro program body frame signal site executed loose
    obtain ⟨node, inside, rfl⟩ := Node.exists_of_mem_loose loose
    refine .body executed.2 inside fun other same => ?_
    exact EvalError.Cause.outsideLoop.inj same ▸ loose

/-- Definitions of variables make no functions. -/
theorem Store.closures_defineAll (scope : ScopeId) (entries : List (String × Value))
    (store : Store) :
    (entries.foldl (fun store entry => store.define scope entry.1 entry.2) store).closures =
      store.closures := by
  -- The induction goes along the variables.
  induction entries generalizing store with
  | nil => rfl
  | cons entry rest ih => exact ih (store.define scope entry.1 entry.2)

/-- Nothing was made yet on a new machine but the global variables. -/
theorem Machine.closures_fresh (host : Host) :
    (Machine.fresh host).state.store.closures = #[] :=
  Store.closures_defineAll _ Store.initialVariables (Store.empty.addScope none).2

/-- A program on a machine is run in a new scope inside the global one. -/
theorem Machine.run_eq_runIn (machine : Machine) (reach : Nat) (source : Source) :
    machine.run reach source = (machine.addScope machine.globals).2.runIn reach source
      (machine.addScope machine.globals).1 := rfl

/-- A new scope comes with no functions. -/
theorem Machine.closures_addScope (machine : Machine) (parent : Option ScopeId) :
    (machine.addScope parent).2.state.store.closures = machine.state.store.closures := rfl

/-- The error of a program on a new machine is told where it arose. -/
theorem Machine.located_of_run {host : Host} {reach : Nat} {source : Source} {error : EvalError}
    {next : Machine} (parsed : source.program = .ok main)
    (failed : (Machine.fresh host).run reach source = some (.error (.failed error), next)) :
    error.Located (Written host.scripts main) main := by
  have lawful := Policy.written_lawful host.scripts main
  rw [run_eq_runIn, runIn_of_program parsed] at failed
  generalize entered : (fresh host).addScope (fresh host).globals = start at failed
  have states : (Policy.written host.scripts main).States start.2.state := by
    rw [← entered]
    refine ⟨?_, rfl⟩
    intro place closure found
    have none := (closures_addScope (fresh host) (fresh host).globals).trans (closures_fresh host)
    simp [Store.closure?, none] at found
  have executed : (Policy.written host.scripts main).executes main main
      (.ofProgram start.2.globals start.1) := ⟨.main, .program⟩
  have ended := (lawful.evaluate reach).runProgram lawful executed start.2.state states
  generalize Eval.runProgram (Scriptlet.evaluate reach) main start.2.globals start.1
    start.2.state = outcome at ended failed
  cases ended with
  | value fine after => cases failed
  | unfinished => cases failed
  | exit fine after =>
    cases failed
    exact fine

namespace Machine

/-- What failed, with the tree of its program, if a source has a program that fails. -/
def failure? (host : Host) (reach : Nat) (source : Source) : Option (Node × EvalError) :=
  match source.program, (fresh host).run reach source with
  | .ok main, some (.error (.failed error), _) => some (main, error)
  | _, _ => none

/-- A source with a program that fails. -/
theorem failure?_eq_some {host : Host} {reach : Nat} {source : Source} {main : Node}
    {error : EvalError} (found : failure? host reach source = some (main, error)) :
    source.program = .ok main ∧
      ∃ next, (fresh host).run reach source = some (.error (.failed error), next) := by
  unfold failure? at found
  split at found
  · rename_i next parsed failed
    cases found
    exact ⟨parsed, next, failed⟩
  · cases found

/-- What can be seen of a failure can be seen of a source that fails in this way. -/
theorem exists_of_failure? {host : Host} {reach : Nat} {source : Source}
    {seen : Node × EvalError → Bool} (check : (failure? host reach source).any seen = true) :
    ∃ main error next, source.program = .ok main ∧
      (fresh host).run reach source = some (.error (.failed error), next) ∧
      seen (main, error) = true := by
  obtain ⟨⟨main, error⟩, found, holds⟩ := (Option.any_eq_true _ _).mp check
  obtain ⟨parsed, next, failed⟩ := failure?_eq_some found
  exact ⟨main, error, next, parsed, failed, holds⟩

end Machine

end Scriptlet
