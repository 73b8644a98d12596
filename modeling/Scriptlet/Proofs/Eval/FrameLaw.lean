import Scriptlet.Proofs.Eval.Invariant
import Scriptlet.Proofs.Store.Access
import Mathlib.Data.Fintype.EquivFin

/-! What an evaluation leaves alone: other scopes, other variables, and lists that are not changed. -/

namespace Scriptlet

namespace Store

/-- Whether a scope with a given parent has a variable of a name with a given value, or none. -/
def Shows (place : ScopeId) (name : String) (parent : Option ScopeId) (value : Option Value)
    (store : Store) : Prop :=
  ∃ found, store.scopes[place.index]? = some found ∧ found.parent = parent ∧
    found.bindings[name]? = value

/-- What a variable of a scope shows stays, as long as no step defines that very variable. -/
theorem shows_invariant (place : ScopeId) (name : String) (parent : Option ScopeId)
    (value : Option Value) :
    Invariant (Shows place name parent value) fun scope other => scope ≠ place ∨ other ≠ name where
  define := by
    -- Another variable of the same scope changes its bindings, but not this one.
    rintro store scope other given ⟨found, present, links, shown⟩ permitted
    by_cases same : scope.index = place.index
    · have differs : other ≠ name :=
        permitted.resolve_left fun ne => ne (congrArg ScopeId.mk same)
      refine ⟨{ found with bindings := found.bindings.insert other given }, ?_, links, ?_⟩
      · simp only [define, Array.getElem?_modify, same, ↓reduceIte, present, Option.map_some]
      · simp only [Std.ExtTreeMap.getElem?_insert, Std.LawfulEqCmp.compare_eq_iff_eq, differs,
          ↓reduceIte, shown]
    · refine ⟨found, ?_, links, shown⟩
      simp only [define, Array.getElem?_modify, same, ↓reduceIte, present]
  addList := fun _ held => held
  addClosure := fun _ held => held
  enclose := by
    -- The new scope stands behind all scopes that were there.
    rintro store scope ⟨found, present, links, shown⟩
    have inside := (Array.getElem?_eq_some_iff.mp present).1
    constructor
    · refine ⟨found, ?_, links, shown⟩
      simp only [enclose, addScope]
      rw [Array.getElem?_push_lt inside]
      exact (Array.getElem?_eq_getElem inside).symm.trans present
    · intro other
      left
      rintro rfl
      simp only [enclose, addScope] at inside
      omega

/-- The elements of a list stay, as long as no step changes a list. -/
theorem elements_invariant (place : ListId) (elements : Array Value) :
    Invariant (fun store => store.lists[place.index]? = some elements) fun _ _ => True where
  define := fun _ held _ => held
  addList := by
    -- The new list stands behind all lists that were there.
    intro store fresh held
    have inside := (Array.getElem?_eq_some_iff.mp held).1
    simp only [addList]
    rw [Array.getElem?_push_lt inside]
    exact (Array.getElem?_eq_getElem inside).symm.trans held
  addClosure := fun _ held => held
  enclose := fun _ held => ⟨held, fun _ => trivial⟩

/-- Every scope of a store has the same variables with the same values in another one. -/
def KeepsScopes (before after : Store) : Prop :=
  ∀ (place : ScopeId) (found : Scope), before.scopes[place.index]? = some found →
    after.scopes[place.index]? = some found

/-- Every list of a store has the same elements in another one. -/
def KeepsLists (before after : Store) : Prop :=
  ∀ (place : ListId) (elements : Array Value), before.lists[place.index]? = some elements →
    after.lists[place.index]? = some elements

/--
Every scope of a store is the same in another one, but for one of them: that one still has the same
parent, and the same variables with the same values except for some names.
-/
structure KeepsScopesBut (scope : ScopeId) (names : List String) (before after : Store) :
    Prop where
  others (place : ScopeId) (found : Scope) (differs : place ≠ scope)
    (present : before.scopes[place.index]? = some found) :
    after.scopes[place.index]? = some found
  own (found : Scope) (present : before.scopes[scope.index]? = some found) :
    ∃ found', after.scopes[scope.index]? = some found' ∧ found'.parent = found.parent ∧
      ∀ name, name ∉ names → found'.bindings[name]? = found.bindings[name]?

/-- There are more names than any list has. -/
theorem exists_unlisted (names : List String) : ∃ name, name ∉ names := by
  -- There are infinitely many strings.
  obtain ⟨name, absent⟩ := Infinite.exists_notMem_finset names.toFinset
  exact ⟨name, fun member => absent (List.mem_toFinset.mpr member)⟩

/-- A scope whose variables all show the same in another store is the same there. -/
theorem scope_eq_of_shows {store : Store} {place : ScopeId} {found : Scope}
    (shown : ∀ name, store.Shows place name found.parent found.bindings[name]?) :
    store.scopes[place.index]? = some found := by
  -- Bindings are determined by what they say of every name.
  obtain ⟨parent, bindings⟩ := found
  obtain ⟨⟨parent', bindings'⟩, present, rfl, -⟩ := shown ""
  have same : bindings' = bindings := by
    apply Std.ExtTreeMap.ext_getElem?
    intro name
    obtain ⟨again, present', -, agrees⟩ := shown name
    obtain rfl : again = _ := Option.some.inj (present'.symm.trans present)
    exact agrees
  rw [present, same]

end Store

namespace Eval

/--
Whether an evaluation performs no call of a built-in function that changes lists: it is not cut off
where such calls are.
-/
def Spares (reach : Nat) (node : Node) (frame : Frame) (state : State) : Prop :=
  evaluateWith sparing reach node frame state ≠ .unfinished

/-- Cutting off calls that are not performed changes nothing. -/
theorem Spares.same {reach : Nat} {node : Node} {frame : Frame} {state : State}
    (spared : Spares reach node frame state) :
    evaluateWith sparing reach node frame state = evaluate reach node frame state := by
  -- The two evaluations are put beside each other, and nothing is required of their store.
  have lawful : (Coupling.diagonal (fun _ => True) (fun _ _ => True) True).Lawful :=
    Coupling.diagonal_lawful Store.Invariant.always
  have alike := lawful.evaluateWith (lawful.sparing trivial) reach () _ node node frame frame
    (Node.Similar.refl lawful.spans_refl node) (Coupling.diagonal_frames frame)
    (fun _ _ => trivial) fun _ _ => trivial
  have outcomes := alike () trivial state state ⟨⟨rfl, trivial⟩, rfl⟩
  exact Coupling.diagonal_outcomes outcomes fun _ => spared

/-- A call of any value changes no scope that was there before. -/
theorem callValue_keepsScopes {reach : Nat} {frame : Frame} {site : Span} {callee : Value}
    {arguments : List Value} {state after : State}
    (ended : (callValue builtin (evaluate reach) frame site callee arguments state).after? =
      some after) : state.store.KeepsScopes after.store := by
  -- Each variable of each scope is an invariant of the call.
  intro place found present
  apply Store.scope_eq_of_shows
  intro name
  have invariant := Store.shows_invariant place name found.parent found.bindings[name]?
  exact invariant.callValue (fun _ _ _ held => held) ⟨found, present, rfl, rfl⟩ ended

end Eval

/-- An evaluation that ends changes no scope but its own, and there only what the construct binds. -/
theorem evaluate_keepsScopesBut {reach : Nat} {node : Node} {frame : Frame} {state after : State}
    (ended : (evaluate reach node frame state).after? = some after) :
    state.store.KeepsScopesBut frame.scope node.targets after.store := by
  -- Each variable that the construct may not define is an invariant of the evaluation.
  have kept (place : ScopeId) (name : String) (found : Scope)
      (present : state.store.scopes[place.index]? = some found)
      (permitted : ∀ other ∈ node.targets, frame.scope ≠ place ∨ other ≠ name) :
      after.store.Shows place name found.parent found.bindings[name]? :=
    (Store.shows_invariant place name found.parent found.bindings[name]?).evaluate
      (fun _ _ _ held => held) permitted ⟨found, present, rfl, rfl⟩ ended
  constructor
  · intro place found differs present
    apply Store.scope_eq_of_shows
    intro name
    exact kept place name found present fun _ _ => .inl differs.symm
  · intro found present
    -- Any name that is not bound tells which scope is around the frame's own one.
    have shown (name : String) (absent : name ∉ node.targets) :=
      kept frame.scope name found present fun other member =>
        .inr fun same => absent (same ▸ member)
    obtain ⟨fresh, unbound⟩ := Store.exists_unlisted node.targets
    obtain ⟨found', present', links, -⟩ := shown fresh unbound
    refine ⟨found', present', links, ?_⟩
    intro name absent
    obtain ⟨again, presentAgain, -, agrees⟩ := shown name absent
    obtain rfl : again = found' := Option.some.inj (presentAgain.symm.trans present')
    exact agrees

/--
Frame law: whenever an evaluation ends, it has changed no scope but the frame's own one, and there
only names that the construct binds outside of functions; without a call of a function that changes
lists every list has kept its elements; and calls by themselves change no scope at all.
-/
theorem evaluate_framed (reach : Nat) (node : Node) (frame : Frame) (state after : State)
    (ended : (evaluate reach node frame state).after? = some after) :
    state.store.KeepsScopesBut frame.scope node.targets after.store ∧
      (Eval.Spares reach node frame state → state.store.KeepsLists after.store) ∧
      ∀ (site : Span) (callee : Value) (arguments : List Value) (before later : State),
        (Eval.callValue Eval.builtin (evaluate reach) frame site callee arguments before).after? =
            some later →
          before.store.KeepsScopes later.store := by
  refine ⟨evaluate_keepsScopesBut ended, ?_, ?_⟩
  · -- The elements of each list are an invariant of what spares lists.
    intro spared place elements present
    exact (Store.elements_invariant place elements).spared (fun _ _ => trivial) present spared
      ended
  · intro site callee arguments before later called
    exact Eval.callValue_keepsScopes called

/-- A function that assigns its argument to the variable `x`, and a call of it with a list. -/
def Node.shadowing : Node :=
  let span : Span := default
  .sequence span
    [.function span (some "f") ["y"] (.assign span "x" (.reference span "y")) .inline,
     .call span (.reference span "f") [.list span [.int span 7]]]

/-- A state with one scope, in which `x` is a text. -/
def State.shadowed : State :=
  { store := (Store.empty.addScope none).2.define ⟨0⟩ "x" (.text "outer")
    host := Host.prepared [] [] .gibibyte .none }

/-- The call does not reach the outer `x`: only the name of the function is bound in that scope. -/
theorem evaluate_framed_shadowing :
    ∃ after, (evaluate 5 .shadowing (.ofProgram ⟨0⟩ ⟨0⟩) .shadowed).after? = some after ∧
      State.shadowed.store.KeepsScopesBut ⟨0⟩ ["f"] after.store ∧
      State.shadowed.store.KeepsLists after.store := by
  -- The program ends, and no list is changed on the way.
  have uncut : ((evaluateWith Eval.sparing 5 .shadowing (.ofProgram ⟨0⟩ ⟨0⟩)
      .shadowed).after?).isSome := by decide +kernel
  have spared : Eval.Spares 5 .shadowing (.ofProgram ⟨0⟩ ⟨0⟩) .shadowed := fun cut => by
    rw [cut] at uncut
    cases uncut
  have ended : ((evaluate 5 .shadowing (.ofProgram ⟨0⟩ ⟨0⟩) .shadowed).after?).isSome := by
    decide +kernel
  obtain ⟨after, ended⟩ := Option.isSome_iff_exists.mp ended
  obtain ⟨scopes, lists, -⟩ :=
    evaluate_framed 5 .shadowing (.ofProgram ⟨0⟩ ⟨0⟩) .shadowed after ended
  exact ⟨after, ended, scopes, lists spared⟩

end Scriptlet
