import Scriptlet.Proofs.Eval.Hidden
import Scriptlet.Proofs.Session.Sound

/-!
What evaluation in a frame can get at: scopes by their variables, and lists and functions by what
holds them. A variable that nothing there names is one that a run can hide.
-/

namespace Scriptlet

mutual

/-- The scopes that evaluation in a frame gets at. -/
inductive Frame.Sees (frame : Frame) (store : Store) : ScopeId → Prop where
  | own : frame.Sees store frame.scope
  | program : frame.Sees store frame.program
  | outer {scope outer : ScopeId} (seen : frame.Sees store scope)
    (around : outer ∈ store.chain scope) : frame.Sees store outer
  | captured {place : ClosureId} {closure : Closure} (found : frame.Finds store (.closure place))
    (made : store.closure? place = some closure) : frame.Sees store closure.scope

/-- The values that evaluation in a frame comes across. -/
inductive Frame.Finds (frame : Frame) (store : Store) : Value → Prop where
  | bound {scope : ScopeId} {name : String} {value : Value} (seen : frame.Sees store scope)
    (bound : store.binding? scope name = some value) : frame.Finds store value
  | element {list : ListId} {value : Value} (found : frame.Finds store (.list list))
    (member : value ∈ store.elements list) : frame.Finds store value

end

/-- No function that evaluation in a frame comes across names a variable, and no script does. -/
structure Frame.Unaware (frame : Frame) (name : String) (state : State) : Prop where
  functions {place : ClosureId} {closure : Closure}
    (found : frame.Finds state.store (.closure place))
    (made : state.store.closure? place = some closure) : name ∉ closure.body.names
  scripts {script text : String} {program : Node} (loaded : state.host.scripts script = .ok text)
    (read : ({ name := script, text } : Source).program = .ok program) : name ∉ program.names

/-- What evaluation in a frame gets at, when nothing has been thrown away yet. -/
def Frame.region (frame : Frame) (store : Store) : Region where
  scopes := frame.Sees store
  lists := fun list => frame.Finds store (.list list)
  closures := fun closure => frame.Finds store (.closure closure)
  discarded := fun _ => False

variable {frame : Frame} {name : String} {state : State} {store : Store} {value : Value}

/-- A list that evaluation comes across in a sound store is there. -/
theorem Frame.Finds.within_ (sound : store.Sound) (found : frame.Finds store value) :
    value.Within store.lists.size := by
  cases found with
  | bound seen bound => exact sound.bindings _ _ _ bound
  | element found member => exact sound.elements _ _ member

/-- What evaluation comes across is in reach. -/
theorem Frame.Finds.knows (found : frame.Finds store value) : (frame.region store).Knows value := by
  cases value with
  | list list => exact found
  | closure closure => exact found
  | number | text | builtin => trivial

/-- In a sound store, what evaluation gets at does not lead out of its reach. -/
theorem Frame.Unaware.closed (unaware : frame.Unaware name state) (sound : state.store.Sound) :
    (frame.region state.store).Closed name state.store where
  outer := fun seen around => .outer seen around
  bindings := fun seen bound => (Frame.Finds.bound seen bound).knows
  kept := fun found => ⟨Frame.Finds.within_ sound found _ rfl, id⟩
  elements := fun found member => (Frame.Finds.element found member).knows
  functions := fun found made => ⟨.captured found made, unaware.functions found made⟩

/-- Nothing has to be thrown away in a sound store. -/
theorem Store.Sound.soundBut (sound : store.Sound) : store.SoundBut fun _ => False where
  bindings := fun bound list same => ⟨sound.bindings _ _ _ bound list same, id⟩
  elements := fun _ member list same => ⟨sound.elements _ _ member list same, id⟩

/-- Nothing differs between a store and itself. -/
theorem Store.SameBut.refl (place : ScopeId) (name : String) (store : Store) :
    store.SameBut place name (fun _ => False) store where
  scopes := rfl
  parents := fun _ => rfl
  bindings := fun _ _ _ => rfl
  count := rfl
  lists := fun _ _ => rfl
  closures := rfl

/-- A variable of a frame's scope can be hidden when nothing names it. -/
theorem Frame.Unaware.states {secret : Secret} (unaware : frame.Unaware secret.name state)
    (sound : state.store.Sound) (here : secret.place = frame.scope)
    (value : state.store.binding? frame.scope secret.name = some secret.value)
    (fixed : ∀ entry ∈ secret.fixed, state.store.binding? frame.scope entry.1 = some entry.2)
    (longer : secret.start ≤ state.store.lists.size) :
    (Coupling.hidden secret).States (frame.region state.store) state state where
  stores :=
    { same := .refl _ _ _
      sound := sound.soundBut
      sound' := sound.soundBut
      closed := unaware.closed sound
      recent := False.elim
      longer
      present := here ▸ Store.present_of_binding? value
      value := here ▸ value
      fixed := fun member => here ▸ fixed _ member }
  hosts := ⟨rfl, fun _ _ _ loaded read => unaware.scripts loaded read⟩

end Scriptlet
