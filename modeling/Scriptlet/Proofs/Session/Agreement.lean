import Scriptlet.Proofs.Session.Sound

/-! Machines that nobody can tell apart who looks at their hosts and at their variables. -/

namespace Scriptlet

/-- Two machines with the same host, and with matching values in the same variables. -/
structure Machine.Agrees (spans : Span → Span → Prop) (machine machine' : Machine) : Prop where
  globals : machine.globals = machine'.globals
  host : machine.state.host = machine'.state.host
  chains (scope : ScopeId) : machine.state.store.chain scope = machine'.state.store.chain scope
  bindings (scope : ScopeId) (name : String) :
    Option.Rel (machine.state.store.Matches spans machine'.state.store)
      (machine.state.store.binding? scope name) (machine'.state.store.binding? scope name)

/-- Two programs that end alike: with values that match, or with errors of the same kind. -/
inductive Machine.EndsAlike (spans : Span → Span → Prop) : Ended → Ended → Prop where
  | cutOff : Machine.EndsAlike spans none none
  | value {value value' : Value} {machine machine' : Machine}
    (same : machine.state.store.Matches spans machine'.state.store value value')
    (agree : machine.Agrees spans machine') :
    Machine.EndsAlike spans (some (.ok value, machine)) (some (.ok value', machine'))
  | failed {error error' : EvalError} {machine machine' : Machine}
    (same : error.Similar spans CallChain.Programs error') (agree : machine.Agrees spans machine') :
    Machine.EndsAlike spans (some (.error (.failed error), machine))
      (some (.error (.failed error'), machine'))

variable {spans : Span → Span → Prop} {start size : Nat} {kept : List (Array Value)}
  {store store' : Store}

namespace Store.Moved

/-- Matching variables of stores that are the same, up to lists that have moved up. -/
theorem matches_bindings {shown shown' : Store}
    (moved : store.Moved spans start kept size store')
    (values : ∀ value value', value.Moved start kept.length size value' →
      shown.Matches spans shown' value value')
    (scope : ScopeId) (name : String) :
    Option.Rel (shown.Matches spans shown') (store.binding? scope name)
      (store'.binding? scope name) := by
  -- The variable is there in both stores or in none.
  have bound := moved.binding? scope name
  generalize store.binding? scope name = value?, store'.binding? scope name = value?' at bound
  cases bound with
  | none => exact .none
  | some alike => exact .some (values _ _ alike)

/-- Corresponding values still match when a list is added on each side, whatever its elements. -/
theorem matches_addList (moved : store.Moved spans start kept size store') (row row' : Array Value)
    {value value' : Value} (alike : value.Moved start kept.length size value') :
    (store.addList row).2.Matches spans (store'.addList row').2 value value' := by
  -- Nothing in either value leads to the new lists.
  apply Store.Matches.of_simulation _ _ alike
  · intro list list' places
    have old : list.index < store.lists.size := by
      rw [moved.count]
      exact places.1
    have old' : list'.index < store'.lists.size := by
      rw [moved.count', places.2]
      have inside := places.1
      split <;> omega
    rw [Store.elements_addList_of_lt old, Store.elements_addList_of_lt old']
    exact moved.elements list list' places
  · rintro closure _ rfl
    exact moved.closure? closure

/-- Machines agree when their stores are the same, up to lists that have moved up. -/
theorem agrees (moved : store.Moved spans start kept size store') (host : Host)
    (globals : ScopeId) :
    Machine.Agrees spans ⟨⟨store, host⟩, globals⟩ ⟨⟨store', host⟩, globals⟩ where
  globals := rfl
  host := rfl
  chains := moved.chain_eq
  bindings := moved.matches_bindings fun _ _ => moved.matches_values

/-- Machines still agree when a list is added on each side. -/
theorem agrees_addList (moved : store.Moved spans start kept size store')
    (row row' : Array Value) (host : Host) (globals : ScopeId) :
    Machine.Agrees spans ⟨⟨(store.addList row).2, host⟩, globals⟩
      ⟨⟨(store'.addList row').2, host⟩, globals⟩ where
  globals := rfl
  host := rfl
  chains scope := by simpa using moved.chain_eq scope
  bindings := moved.matches_bindings fun _ _ => moved.matches_addList row row'

end Store.Moved

/-- Programs end alike when their runs do. -/
theorem Machine.EndsAlike.of_outcomes {world : Nat} {outcome outcome' : Outcome EvalError Value}
    (alike : (Coupling.moved spans start kept).Outcomes world
      ((Coupling.moved spans start kept).Errors CallChain.Programs)
      (Coupling.moved spans start kept).Values outcome outcome') (globals : ScopeId) :
    Machine.EndsAlike spans (Machine.ended globals outcome) (Machine.ended globals outcome') := by
  cases alike with
  | unfinished => exact .cutOff
  | cut lax => exact lax.elim
  | @value later value value' state state' grown same states =>
    obtain ⟨store, host⟩ := state
    obtain ⟨store', _⟩ := state'
    obtain ⟨stores, rfl⟩ := states
    exact .value (stores.matches_values same) (stores.agrees host globals)
  | @exit later error error' state state' grown same states =>
    obtain ⟨store, host⟩ := state
    obtain ⟨store', _⟩ := state'
    obtain ⟨stores, rfl⟩ := states
    exact .failed same (stores.agrees host globals)

end Scriptlet
