import Scriptlet.Proofs.Eval.Habit
import Scriptlet.Proofs.Eval.Reach
import Scriptlet.Proofs.Eval.Waypoint

/-!
What programs take from the input: lines at its front, each of them in a call of a function that reads
lines.
-/

namespace Scriptlet

/-- Whether so many lines or fewer are left behind an outcome, where there were more before it. -/
def Outcome.takesTo {ε α : Type} (left : Nat) (state : State) (outcome : Outcome ε α) : Bool :=
  outcome.after?.any fun after =>
    left < state.host.input.length && after.host.input.length ≤ left

/--
The built-in functions up to the line of the input that has so many others behind it: a call of a
function that reads lines is cut off if it takes this line.
-/
def Eval.leaving (left : Nat) : Library := fun evaluate frame site function arguments state =>
  if function.reads && (builtin evaluate frame site function arguments state).takesTo left state then
    .unfinished
  else
    builtin evaluate frame site function arguments state

namespace Host

/--
A relation between hosts and what becomes of them, in any number of deeds; reading a line need not
be one of these.
-/
structure Course (moves : Host → Host → Prop) (reading : Prop) : Prop where
  refl (host : Host) : moves host host
  trans {host middle after : Host} (first : moves host middle) (second : moves middle after) :
    moves host after
  written {line : String} {host after : Host} (done : host.writeLine line = .ok after) :
    moves host after
  cleared {host after : Host} (done : host.clear = .ok after) : moves host after
  loaded (name : String) (host : Host) : moves host (host.load name).2
  read (meant : reading) (host : Host) : moves host host.readLine.2

/-- A host after some lines of its input were taken; it breaks down as before. -/
structure Takes (host after : Host) : Prop where
  breakdown : after.breakdown = host.breakdown
  input : ∃ taken, host.input = taken ++ after.input

/-- Lines that are written go no way but out. -/
theorem writeLine_kept {line : String} {host after : Host} (done : host.writeLine line = .ok after) :
    after.breakdown = host.breakdown ∧ after.input = host.input := by
  unfold writeLine at done
  split at done
  · cases done
  · cases done
    exact ⟨rfl, rfl⟩

/-- Clearing what was written keeps the input. -/
theorem clear_kept {host after : Host} (done : host.clear = .ok after) :
    after.breakdown = host.breakdown ∧ after.input = host.input := by
  unfold clear at done
  split at done
  · cases done
  · cases done
    exact ⟨rfl, rfl⟩

/-- Reading a line takes it, and takes nothing at the end of the input. -/
theorem takes_readLine (host : Host) : host.Takes host.readLine.2 := by
  unfold readLine
  split
  · exact ⟨rfl, [], rfl⟩
  · cases input : host.input with
    | nil => exact ⟨rfl, [], rfl⟩
    | cons line rest => exact ⟨rfl, [line], input⟩

/-- Whatever is done takes lines from the front of the input. -/
theorem course_takes : Course Takes True where
  refl _ := ⟨rfl, [], rfl⟩
  trans first second := by
    obtain ⟨taken, input⟩ := first.input
    obtain ⟨others, input'⟩ := second.input
    refine ⟨second.breakdown.trans first.breakdown, taken ++ others, ?_⟩
    rw [input, input', List.append_assoc]
  written done := ⟨(writeLine_kept done).1, [], (writeLine_kept done).2.symm⟩
  cleared done := ⟨(clear_kept done).1, [], (clear_kept done).2.symm⟩
  loaded _ _ := ⟨rfl, [], rfl⟩
  read _ host := host.takes_readLine

/-- What is done without reading a line takes none. -/
theorem course_leaves (left : Nat) :
    Course (fun host after => left < host.input.length → left < after.input.length) False where
  refl _ := id
  trans first second := second ∘ first
  written done := by rw [(writeLine_kept done).2]; exact id
  cleared done := by rw [(clear_kept done).2]; exact id
  loaded _ _ := id
  read meant := meant.elim

end Host

variable {moves : Host → Host → Prop} {reading : Prop}

/-- A deed at the host leaves a host of its course behind, whether it is done or fails. -/
theorem Host.Course.perform {deed : Host → Except String Host} (course : Host.Course moves reading)
    (done : ∀ {host after}, deed host = .ok after → moves host after) (frame : Frame) (site : Span)
    {state after : State} (ended : (Action.perform frame site deed state).after? = some after) :
    moves state.host after.host := by
  obtain ⟨store, host⟩ := state
  simp only [Action.perform] at ended
  cases did : deed host with
  | ok next =>
    rw [did] at ended
    cases ended
    exact done did
  | error reason =>
    rw [did] at ended
    cases ended
    exact course.refl _

/-- The habit of leaving a host of its course behind. -/
def Habit.along (course : Host.Course moves reading) : Habit where
  reading := reading
  Keeps step := ∀ state after, (step state).after? = some after → moves state.host after.host
  pure := by
    rintro _ _ state _ ⟨⟩
    exact course.refl _
  bind := by
    intro _ _ first next firsts nexts state after ended
    obtain ended | ⟨result, middle, did, ended⟩ := Action.after?_bind ended
    · exact firsts state after ended
    · exact course.trans (firsts state middle (congrArg Outcome.after? did))
        (nexts result middle after ended)
  leave := by
    rintro _ _ state _ ⟨⟩
    exact course.refl _
  cutOff := nofun
  look := by
    rintro _ _ state _ ⟨⟩
    exact course.refl _
  make := by
    rintro _ _ state _ ⟨⟩
    exact course.refl _
  writeLine frame site line := fun state after ended =>
    course.perform course.written frame site ((Action.after?_mapExit _ _ _).symm.trans ended)
  clear frame site := fun state after ended =>
    course.perform course.cleared frame site ((Action.after?_mapExit _ _ _).symm.trans ended)
  readLine meant frame site := by
    intro ⟨store, host⟩ after ended
    have left : (Action.readLine frame site ⟨store, host⟩).after? = some after :=
      (Action.after?_mapExit _ _ _).symm.trans ended
    have read := course.read meant host
    simp only [Action.readLine] at left
    generalize host.readLine = found at left read
    -- A line, the end of the input and a breakdown all leave the same host.
    rcases found with ⟨reason | _ | line, next⟩ <;> cases left <;> exact read
  linesLeft := by
    rintro _ state _ ⟨⟩
    exact course.refl _
  memory := by
    rintro state _ ⟨⟩
    exact course.refl _
  load {_ next} name loaded missing := by
    intro ⟨store, host⟩ after ended
    obtain ⟨⟨⟩⟩ | ⟨script, middle, ⟨⟩, ended⟩ := Action.after?_bind ended
    · exact course.loaded name host
    · refine course.trans (course.loaded name host) ?_
      generalize host.scripts name = script at ended
      cases script with
      | ok text => exact loaded text _ _ ended
      | error reason =>
        obtain ⟨error, fails⟩ := missing reason
        rw [fails] at ended
        cases ended
        exact course.refl _
  settle {body} frame kept := fun state after ended =>
    kept state after ((Action.after?_settle frame body state).symm.trans
      ((Action.after?_mapExit _ _ _).symm.trans ended))
  round {body} kept := fun state after ended =>
    kept state after ((Action.after?_round body state).symm.trans ended)
  retell {_ step} told kept := fun state after ended =>
    kept state after ((Action.after?_mapExit _ _ _).trans
      ((Action.after?_mapExit told step state).symm.trans
        ((Action.after?_mapExit _ _ _).symm.trans ended)))

/-- Built-in functions take no line if the calls that would take it are cut off. -/
theorem Habit.calls_leaving (left : Nat) :
    (Habit.along (Host.course_leaves left)).Calls (Eval.leaving left) := by
  intro evaluate kept frame site function arguments fits state after ended
  have ended : (Eval.leaving left evaluate frame site function arguments state).after? =
    some after := (Action.after?_mapExit _ _ _).symm.trans ended
  -- What is not cut off takes no such line, or reads none.
  unfold Eval.leaving at ended
  split at ended
  · cases ended
  · rename_i spared
    by_cases reads : function.reads
    · intro more
      simpa [reads, Outcome.takesTo, ended, more] using spared
    · exact kept.builtin frame site (fun meant => absurd meant reads) fits state after
        ((Action.after?_mapExit _ _ _).trans ended)

/-- Where the first run may be cut off, it may be so where a line would be taken. -/
theorem Coupling.Lawful.leaving {coupling : Coupling} (lawful : coupling.Lawful)
    (lax : coupling.lax) (allowed : coupling.AllowsChanges) (left : Nat) :
    coupling.Libraries (Eval.leaving left) Eval.builtin := by
  intro evaluate evaluate' evaluators world roots frame frame' site site' function arguments
    arguments' frames places fits alike later grown state state' states
  -- A call that takes the line is cut off, and every other one is the same in both.
  unfold Eval.leaving
  split
  · exact .cut lax _
  · exact evaluators.builtin lawful (fun _ => allowed) frames places fits alike later grown state
      state' states

variable {reach : Nat} {node : Node} {frame : Frame} {state : State}

/-- Cutting off calls that take a line changes nothing where there are none. -/
theorem evaluateWith_leaving {left : Nat}
    (finished : evaluateWith (Eval.leaving left) reach node frame state ≠ .unfinished) :
    evaluateWith (Eval.leaving left) reach node frame state = evaluate reach node frame state := by
  -- The two evaluations are put beside each other, and nothing is required of their store.
  have lawful : (Coupling.diagonal (fun _ => True) (fun _ _ => True) True).Lawful :=
    Coupling.diagonal_lawful Store.Invariant.always
  have libraries := lawful.leaving trivial
    (Coupling.diagonal_allowsChanges fun _ _ _ _ => trivial) left
  have alike := lawful.evaluateWith libraries reach () _ node node frame frame
    (Node.Similar.refl lawful.spans_refl node) (Coupling.diagonal_frames frame)
    (fun _ _ => trivial) fun _ _ => trivial
  have outcomes := alike () trivial state state ⟨⟨rfl, trivial⟩, rfl⟩
  exact Coupling.diagonal_outcomes outcomes fun _ => finished

/-- Evaluations that are not cut off are the same at any reach. -/
theorem evaluate_agree {further : Nat} (finished : evaluate reach node frame state ≠ .unfinished)
    (finished' : evaluate further node frame state ≠ .unfinished) :
    evaluate reach node frame state = evaluate further node frame state :=
  (evaluate_mono (Nat.le_max_left reach further) finished).symm.trans
    (evaluate_mono (Nat.le_max_right reach further) finished')

namespace Machine

/--
A program takes the line of the input that has so many others behind it in a call of a function that
reads lines: at any reach its run is cut off, if it is cut off at such a call.
-/
def Asks (machine : Machine) (source : Source) (scope : ScopeId) (left : Nat) : Prop :=
  ∃ program, source.program = .ok program ∧ ∀ reach,
    evaluateWith (Eval.leaving left) reach program (.ofProgram machine.globals scope)
      machine.state = .unfinished

/--
A program takes lines from the front of the input, and each of them in a call of a function that
reads lines.
-/
theorem runIn_takes {machine next : Machine} {source : Source} {scope : ScopeId}
    {result : Except ProgramError Value}
    (ended : machine.runIn reach source scope = some (result, next)) :
    machine.state.host.Takes next.state.host ∧
      ∀ left, next.state.host.input.length ≤ left → left < machine.state.host.input.length →
        machine.Asks source scope left := by
  cases parsed : source.program with
  | error error =>
    simp only [runIn, parsed, Option.some.injEq, Prod.mk.injEq] at ended
    obtain ⟨-, rfl⟩ := ended
    exact ⟨⟨rfl, [], rfl⟩, fun left few many => absurd many (Nat.not_lt.mpr few)⟩
  | ok program =>
    have after := (after?_of_runIn parsed ended).2
    have taking : (Habit.along Host.course_takes).Evaluates (evaluate reach) :=
      Habit.evaluates trivial reach
    refine ⟨taking program _ _ _ after, fun left few many => ⟨program, parsed, fun further => ?_⟩⟩
    -- A run that is not cut off is the run itself, and it would have left the line.
    by_contra finished
    have same := evaluate_agree (evaluateWith_leaving finished ▸ finished)
      (Outcome.ne_of_after? after)
    have spares : (Habit.along (Host.course_leaves left)).Evaluates
        (evaluateWith (Eval.leaving left) further) := (Habit.calls_leaving left).evaluates further
    have spared : left < next.state.host.input.length := spares program _ _ _
      (((evaluateWith_leaving finished).trans same).symm ▸ after) many
    exact absurd spared (Nat.not_lt.mpr few)

end Machine

end Scriptlet
