import Scriptlet.Proofs.Eval.Moments

/-!
Scopes in sessions: at every time the way outward from a scope ends at the global one, and it is the
same at all later times.
-/

namespace Scriptlet

namespace Machine

/-- A program comes through a state in a scope, and there or later through another one. -/
def Passes (machine : Machine) (source : Source) (scope : ScopeId) (first second : State) : Prop :=
  ∃ program stops stops' reach, source.program = .ok program ∧
    (∀ state, stops' state → stops state) ∧
    (Eval.runProgram (evaluateUntil stops reach) program machine.globals scope
      machine.state).after? = some first ∧
    (Eval.runProgram (evaluateUntil stops' reach) program machine.globals scope
      machine.state).after? = some second

/--
What may become of an interpreter: its host changes itself, defines variables, and makes scopes
inside of others, and programs run in any scope, to their end or up to a state that they come
through.
-/
inductive Goes : Machine → Machine → Prop where
  | changeHost (machine : Machine) (host : Host) : Goes machine { machine with state.host := host }
  | define (machine : Machine) (scope : ScopeId) (name : String) (value : Value) :
    Goes machine (machine.define scope name value)
  | enclose {machine : Machine} {parent : ScopeId} (has : machine.state.store.Has parent) :
    Goes machine (machine.addScope (some parent)).2
  | runIn {machine next : Machine} {reach : Nat} {source : Source} {scope : ScopeId}
    {result : Except ProgramError Value} (has : machine.state.store.Has scope)
    (finished : machine.runIn reach source scope = some (result, next)) : Goes machine next
  | stop {machine : Machine} {source : Source} {scope : ScopeId} {state : State}
    (has : machine.state.store.Has scope) (passed : machine.ComesThrough source scope state) :
    Goes machine { machine with state }

variable {machine next : Machine} {source : Source} {scope : ScopeId} {first second : State}

/-- An interpreter that has run nothing yet has one scope. -/
theorem nested_fresh (host : Host) : (fresh host).state.store.Nested (fresh host).globals :=
  Store.nested_addGlobals

/-- What a program comes through has become of what there was, and later states of earlier ones. -/
theorem Passes.leads (nested : machine.state.store.Nested machine.globals)
    (has : machine.state.store.Has scope) (passes : machine.Passes source scope first second) :
    machine.state.store.Leads first.store ∧ first.store.Leads second.store := by
  -- The run up to the first state is put beside the one up to the second state.
  obtain ⟨program, stops, stops', reach, -, fewer, ended, ended'⟩ := passes
  have trailing : Trailing machine.globals (evaluateUntil stops reach)
      (evaluateUntil stops' reach) := Trailing.evaluateUntil fewer reach
  have trails := trailing.runProgram nested has program machine.globals machine.state .refl
  exact ⟨trails.before ended, trails.further ended ended'⟩

/-- A program comes through both states. -/
theorem Passes.comesThrough (passes : machine.Passes source scope first second) :
    machine.ComesThrough source scope first ∧ machine.ComesThrough source scope second := by
  obtain ⟨program, stops, stops', reach, parsed, -, ended, ended'⟩ := passes
  exact ⟨⟨program, stops, reach, parsed, ended⟩, ⟨program, stops', reach, parsed, ended'⟩⟩

/-- A program that comes through a state comes through it again there. -/
theorem ComesThrough.passes {state : State} (passed : machine.ComesThrough source scope state) :
    machine.Passes source scope state state := by
  obtain ⟨program, stops, reach, parsed, ended⟩ := passed
  exact ⟨program, stops, stops, reach, parsed, fun _ => id, ended, ended⟩

/-- The store of an interpreter becomes what it may, and the global scope stays the same. -/
theorem Goes.leads (goes : machine.Goes next)
    (nested : machine.state.store.Nested machine.globals) :
    machine.state.store.Leads next.state.store ∧ next.globals = machine.globals := by
  -- One case for each thing that may happen; a program that ends comes through its last state.
  cases goes with
  | changeHost host => exact ⟨.refl, rfl⟩
  | define scope name value => exact ⟨.single (.define _ scope name value), rfl⟩
  | enclose has => exact ⟨.single (.enclose has), rfl⟩
  | stop has passed => exact ⟨(passed.passes.leads nested has).1, rfl⟩
  | @runIn _ _ source _ _ has finished =>
    cases parsed : source.program with
    | error error =>
      unfold Machine.runIn at finished
      rw [parsed] at finished
      cases finished
      exact ⟨.refl, rfl⟩
    | ok program =>
      have passed := comesThrough_of_ended parsed finished
      exact ⟨(passed.passes.leads nested has).1, (after?_of_runIn parsed finished).1⟩

/-- The store goes on to become what it may, whatever becomes of an interpreter. -/
theorem leads_of_goes (goes : Relation.ReflTransGen Goes machine next)
    (nested : machine.state.store.Nested machine.globals) :
    machine.state.store.Leads next.state.store ∧ next.globals = machine.globals := by
  -- The induction is on what happens one after another; scopes are nested all the time.
  induction goes with
  | refl => exact ⟨.refl, rfl⟩
  | tail _ last ih =>
    obtain ⟨leads, same⟩ := ih
    obtain ⟨leads', same'⟩ := last.leads (same ▸ leads.nested nested)
    exact ⟨leads.trans leads', same'.trans same⟩

/-- A program of a session runs in a new scope inside of the global one. -/
theorem goes_of_run {reach : Nat} {result : Except ProgramError Value}
    (there : machine.state.store.Has machine.globals)
    (finished : machine.run reach source = some (result, next)) :
    machine.Goes (machine.addScope (some machine.globals)).2 ∧
      Goes (machine.addScope (some machine.globals)).2 next :=
  ⟨.enclose there, .runIn (Store.has_enclose.mpr (.inl rfl)) finished⟩

/--
Scopes lie inside of each other for good. Whatever becomes of an interpreter, the way outward from
each of its scopes is finite, ends at the global scope, and is the same at all later times, also at
two moments of one program; a search for a variable comes to an end, with the value in the first
scope on the way that has the variable, or with none if there is no such scope. Programs that run
one after another are part of that, each in a new scope inside of the global one.
-/
theorem scopes_lexical {host : Host} (reached : Relation.ReflTransGen Goes (fresh host) machine) :
    (∀ scope, machine.state.store.Has scope →
      ∃ path, machine.state.store.Lexical machine.globals scope path) ∧
    (∀ next, Relation.ReflTransGen Goes machine next → next.globals = machine.globals ∧
      ∀ scope path, machine.state.store.Has scope → machine.state.store.Outward scope path →
        next.state.store.Has scope ∧ next.state.store.Outward scope path) ∧
    (∀ source place first second, machine.state.store.Has place →
      machine.Passes source place first second →
      machine.Goes { machine with state := first } ∧
      machine.Goes { machine with state := second } ∧
      ∀ scope path, first.store.Has scope → first.store.Outward scope path →
        second.store.Has scope ∧ second.store.Outward scope path) ∧
    ∀ reach source result next, machine.run reach source = some (result, next) →
      Relation.ReflTransGen Goes machine next ∧
      next.state.store.Outward ⟨machine.state.store.scopes.size⟩
        [⟨machine.state.store.scopes.size⟩, machine.globals] := by
  -- Scopes are nested at first, and so they are at all times.
  obtain ⟨leads, globals⟩ := leads_of_goes reached (nested_fresh host)
  have nested : machine.state.store.Nested machine.globals :=
    globals ▸ leads.nested (nested_fresh host)
  refine ⟨fun scope has => ⟨_, nested.lexical has⟩, fun next goes => ?_,
    fun source place first second has passes => ?_, fun reach source result next finished => ?_⟩
  · obtain ⟨leads, same⟩ := leads_of_goes goes nested
    exact ⟨same, fun scope path has outward => ⟨leads.has has, leads.outward nested has outward⟩⟩
  · obtain ⟨leads, leads'⟩ := passes.leads nested has
    obtain ⟨passed, passed'⟩ := passes.comesThrough
    refine ⟨.stop has passed, .stop has passed', fun scope path has outward => ?_⟩
    exact ⟨leads'.has has, leads'.outward (leads.nested nested) has outward⟩
  · obtain ⟨enclosed, ran⟩ := goes_of_run nested.there finished
    obtain ⟨leads, same⟩ := enclosed.leads nested
    obtain ⟨leads', -⟩ := ran.leads (same ▸ leads.nested nested)
    have there : (machine.state.store.enclose machine.globals).2.Has
        ⟨machine.state.store.scopes.size⟩ := Store.has_enclose.mpr (.inl rfl)
    refine ⟨.tail (.single enclosed) ran, ?_⟩
    exact leads'.outward (leads.nested nested) there nested.outward_enclose

/-- A function that calls itself, and returns a function that is called, and then a script. -/
def descending : Source :=
  { name := "descending"
    text := "FUN down(n) -> IF n THEN down(n - 1) ELSE FUN () -> n\n" ++
      "VAR last = down(2)\nlast()\nRUN(\"s\")" }

/-- A host with the script. -/
def descent : Host :=
  .prepared [] [("s", "VAR n = 5")] .gibibyte .none

/-- The call of the function that was returned is inside of the innermost of the calls before it. -/
theorem scopes_lexical_descending :
    ∃ machine, Relation.ReflTransGen Goes (fresh descent) machine ∧
      machine.state.store.scopes.size = 7 ∧
      machine.state.store.Lexical machine.globals ⟨5⟩ [⟨5⟩, ⟨4⟩, ⟨1⟩, ⟨0⟩] ∧
      machine.lookup ⟨5⟩ "n" = some (.number (.int 0)) := by
  have seen : ((fresh descent).run 30 descending).map (fun ended =>
      (ended.2.state.store.scopes.size, [⟨5⟩, ⟨4⟩, ⟨1⟩, ⟨0⟩].map ended.2.state.store.parent?,
        ended.2.lookup ⟨5⟩ "n")) =
      some (7, [some ⟨4⟩, some ⟨1⟩, some ⟨0⟩, none], some (.number (.int 0))) := by decide +kernel
  obtain ⟨⟨result, machine⟩, finished, seen⟩ := Option.map_eq_some_iff.mp seen
  injection seen with size seen
  injection seen with parents found
  injection parents with parent parents
  injection parents with parent' parents
  injection parents with parent'' parents
  injection parents with last
  have outward : machine.state.store.Outward ⟨5⟩ [⟨5⟩, ⟨4⟩, ⟨1⟩, ⟨0⟩] :=
    .inside parent (.inside parent' (.inside parent'' (.root last)))
  have reached : Relation.ReflTransGen Goes (fresh descent) machine :=
    ((scopes_lexical .refl).2.2.2 _ _ _ _ finished).1
  obtain ⟨path, lexical⟩ := (scopes_lexical reached).1 ⟨5⟩ (by rw [Store.Has, size]; decide)
  obtain rfl := outward.unique lexical.outward
  exact ⟨machine, reached, size, lexical, found⟩

end Machine

end Scriptlet
