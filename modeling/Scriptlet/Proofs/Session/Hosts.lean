import Scriptlet.Console
import Scriptlet.Proofs.Eval.Habit
import Scriptlet.Proofs.Eval.Provenance
import Scriptlet.Proofs.Text.Encoding

/-!
Two worlds with the same lines and scripts: a script does the same beside prepared ones and on a
command line.
-/

namespace Scriptlet

/-- A state whose host loads other scripts. -/
def State.withScripts (files : String → Except String String) (state : State) : State :=
  { state with host := { state.host with scripts := files } }

/-- Every one of some scripts is among some files. -/
def Backed (scripts files : String → Except String String) : Prop :=
  ∀ name text, scripts name = .ok text → files name = .ok text

/-- A host that was asked for a script that is none of those that there are. -/
def Host.Strayed (scripts : String → Except String String) (host : Host) : Prop :=
  ∃ name reason, .loaded name ∈ host.transcript.toList ∧ scripts name = .error reason

/-- Reading a line does not depend on the scripts, and does not change them. -/
theorem Host.readLine_withScripts (files : String → Except String String) (host : Host) :
    ({ host with scripts := files } : Host).readLine =
        (host.readLine.1, { host.readLine.2 with scripts := files }) ∧
      host.readLine.2.scripts = host.scripts := by
  obtain ⟨input, scripts, memory, ⟨write, read, clear⟩, transcript⟩ := host
  cases read with
  | some reason => exact ⟨rfl, rfl⟩
  | none =>
    cases input with
    | nil => exact ⟨rfl, rfl⟩
    | cons line rest => exact ⟨rfl, rfl⟩

/--
Outcomes of one step beside a host with some scripts and beside one with files: they are the same,
unless the first step failed after a script was missing.
-/
inductive Outcome.SameBeside {ε α : Type} (scripts files : String → Except String String)
    (failed : EvalError → ε) : Outcome ε α → Outcome ε α → Prop where
  | value (result : α) {state : State} (same : state.host.scripts = scripts) :
    Outcome.SameBeside scripts files failed (.value result state)
      (.value result (state.withScripts files))
  | exit (cause : ε) {state : State} (same : state.host.scripts = scripts) :
    Outcome.SameBeside scripts files failed (.exit cause state)
      (.exit cause (state.withScripts files))
  | unfinished : Outcome.SameBeside scripts files failed .unfinished .unfinished
  | strayed (error : EvalError) {state : State} (strayed : state.host.Strayed scripts)
    (other : Outcome ε α) :
    Outcome.SameBeside scripts files failed (.exit (failed error) state) other

variable {scripts files : String → Except String String}

/-- A step that can only fail has the outcomes that it has as a step of an evaluation. -/
theorem Outcome.SameBeside.of_lift {α : Type} {step : Action EvalError α} {state state' : State}
    (alike : ((liftM step : Action Exit α) state).SameBeside scripts files Exit.failed
      ((liftM step : Action Exit α) state')) :
    (step state).SameBeside scripts files id (step state') := by
  change (step.mapExit Exit.failed state).SameBeside scripts files Exit.failed
    (step.mapExit Exit.failed state') at alike
  unfold Action.mapExit at alike
  generalize step state = outcome, step state' = outcome' at alike
  cases outcome with
  | value result after =>
    cases outcome' <;> cases alike
    exact .value result ‹_›
  | unfinished =>
    cases outcome' <;> cases alike
    exact .unfinished
  | exit error after =>
    -- The second step may have any outcome if the first one strayed.
    cases outcome' with
    | exit error' after' =>
      cases alike with
      | exit cause backed => exact .exit error backed
      | strayed error strayed => exact .strayed error strayed _
    | value result' after' =>
      cases alike with
      | strayed error strayed => exact .strayed error strayed _
    | unfinished =>
      cases alike with
      | strayed error strayed => exact .strayed error strayed _

/-- The habit of doing the same beside a host with some scripts and beside one with files. -/
def Habit.beside (backed : Backed scripts files) : Habit where
  reading := True
  Keeps step := ∀ state : State, state.host.scripts = scripts →
    (step state).SameBeside scripts files Exit.failed (step (state.withScripts files))
  pure result := fun _ same => .value result same
  bind {_ _ first next} firsts nexts := by
    intro state same
    have ended := firsts state same
    rw [Action.bind_apply, Action.bind_apply]
    generalize first state = outcome, first (state.withScripts files) = outcome' at ended
    cases ended with
    | value result same => exact nexts result _ same
    | exit cause same => exact .exit cause same
    | unfinished => exact .unfinished
    | strayed error strayed other => exact .strayed error strayed _
  leave cause := fun _ same => .exit cause same
  cutOff := fun _ _ => .unfinished
  look view := fun state same => .value (view state.store) same
  make update := fun state same => .value (update state.store).1 same
  writeLine frame site line := by
    intro ⟨store, host⟩ same
    show ((Action.perform frame site _).mapExit Exit.failed _).SameBeside scripts files Exit.failed
      ((Action.perform frame site _).mapExit Exit.failed _)
    simp only [Action.mapExit, Action.perform, State.withScripts, Host.writeLine]
    cases host.breakdown.write with
    | none => exact .value () same
    | some reason => exact .exit _ same
  clear frame site := by
    intro ⟨store, host⟩ same
    show ((Action.perform frame site _).mapExit Exit.failed _).SameBeside scripts files Exit.failed
      ((Action.perform frame site _).mapExit Exit.failed _)
    simp only [Action.mapExit, Action.perform, State.withScripts, Host.clear]
    cases host.breakdown.clear with
    | none => exact .value () same
    | some reason => exact .exit _ same
  readLine _ frame site := by
    intro ⟨store, host⟩ same
    show ((Action.readLine frame site).mapExit Exit.failed _).SameBeside scripts files Exit.failed
      ((Action.readLine frame site).mapExit Exit.failed _)
    obtain ⟨read, kept⟩ := host.readLine_withScripts files
    simp only [Action.mapExit, Action.readLine, State.withScripts, read]
    have same : host.readLine.2.scripts = scripts := kept.trans same
    generalize host.readLine = read at same
    rcases read with ⟨reason | _ | line, after⟩
    · exact .exit _ same
    · exact .exit _ same
    · exact .value line same
  linesLeft _ := fun state same => .value state.host.input.length same
  memory := fun state same => .value state.host.memory same
  load {_ next} name loaded missing := by
    intro ⟨store, host⟩ same
    rw [Action.bind_apply, Action.bind_apply]
    change host.scripts = scripts at same
    simp only [Action.load, State.withScripts, Host.load, same]
    cases found : scripts name with
    | ok text =>
      rw [backed name text found]
      exact loaded text _ rfl
    | error reason =>
      -- Whatever the files do, the first step fails here.
      obtain ⟨error, fails⟩ := missing reason
      rw [fails]
      exact .strayed error ⟨name, reason, by simp, found⟩ _
  settle {body} frame kept := by
    intro state same
    have ended := kept state same
    show ((Action.settle frame body).mapExit Exit.failed state).SameBeside scripts files Exit.failed
      ((Action.settle frame body).mapExit Exit.failed _)
    unfold Action.mapExit Action.settle
    generalize body state = outcome, body (state.withScripts files) = outcome' at ended
    cases ended with
    | value result same => exact .value result same
    | unfinished => exact .unfinished
    | strayed error strayed other => exact .strayed error strayed _
    | exit cause same =>
      cases cause with
      | failed error => exact .exit _ same
      | returned value => exact .value value same
      | broke site => exact .exit _ same
      | continued site => exact .exit _ same
  round {body} kept := by
    intro state same
    have ended := kept state same
    unfold Action.round
    generalize body state = outcome, body (state.withScripts files) = outcome' at ended
    cases ended with
    | value result same => exact .value _ same
    | unfinished => exact .unfinished
    | strayed error strayed other => exact .strayed error strayed _
    | exit cause same =>
      cases cause with
      | failed error => exact .exit _ same
      | returned value => exact .exit _ same
      | broke site => exact .value _ same
      | continued site => exact .value _ same
  retell {_ step} told kept := by
    intro state same
    have ended := (kept state same).of_lift
    show ((step.mapExit told).mapExit Exit.failed state).SameBeside scripts files Exit.failed
      ((step.mapExit told).mapExit Exit.failed _)
    unfold Action.mapExit
    generalize step state = outcome, step (state.withScripts files) = outcome' at ended
    cases ended with
    | value result same => exact .value result same
    | exit error same => exact .exit _ same
    | unfinished => exact .unfinished
    | strayed error strayed other => exact .strayed _ strayed _

/-- A program does the same beside a host and beside one with files, unless a script is missing. -/
theorem Machine.runIn_beside (machine : Machine) (backed : Backed machine.state.host.scripts files)
    (reach : Nat) (source : Source) (scope : ScopeId) :
    Machine.runIn reach source scope { machine with state := machine.state.withScripts files } =
        (machine.runIn reach source scope).map (fun (result, next) =>
          (result, { next with state := next.state.withScripts files })) ∨
      ∃ error next, machine.runIn reach source scope = some (.error (.failed error), next) ∧
        next.state.host.Strayed machine.state.host.scripts := by
  cases parsed : source.program with
  | error error =>
    left
    simp [Machine.runIn, parsed]
  | ok program =>
    have evaluates : (Habit.beside backed).Evaluates (evaluate reach) := Habit.evaluates trivial reach
    have kept := evaluates.runProgram program machine.globals scope
    have ended := (kept machine.state rfl).of_lift
    rw [runIn_of_program parsed, runIn_of_program parsed]
    generalize Eval.runProgram (evaluate reach) program machine.globals scope machine.state =
        outcome,
      Eval.runProgram (evaluate reach) program machine.globals scope
        (machine.state.withScripts files) = outcome' at ended ⊢
    cases ended with
    | value result backed => exact .inl rfl
    | exit error backed => exact .inl rfl
    | unfinished => exact .inl rfl
    | strayed error strayed other => exact .inr ⟨error, _, rfl, strayed⟩

/-- A program on a new machine does the same beside a host and beside one with files. -/
theorem Machine.run_beside {host : Host} (backed : Backed host.scripts files) (reach : Nat)
    (source : Source) :
    (Machine.fresh { host with scripts := files }).run reach source =
        ((Machine.fresh host).run reach source).map (fun (result, next) =>
          (result, { next with state := next.state.withScripts files })) ∨
      ∃ error next, (Machine.fresh host).run reach source =
          some (.error (.failed error), next) ∧ next.state.host.Strayed host.scripts := by
  rw [run_eq_runIn, run_eq_runIn]
  exact runIn_beside ((Machine.fresh host).addScope (Machine.fresh host).globals).2 backed reach
    source _

namespace Surroundings

variable {surroundings : Surroundings} {lines : List String}

/-- Lines that were written out are what the host of a console has to read. -/
theorem host_input (typed : ∀ line ∈ lines, Text.IsLine line)
    (written : surroundings.input = Text.encodeLines lines) :
    surroundings.host.input = lines.map .ok := by
  simp only [host, written, Text.byteLines_encodeLines typed, List.map_map]
  apply List.map_congr_left
  intro line member
  simp [Text.decode?_encode, Text.dropLineEnds_of_isLine (typed line member)]

/-- Scripts that were written to files are what the host of a console has to load. -/
theorem script_of_encode {name text : String}
    (written : surroundings.files name = some (Text.encode text)) :
    surroundings.script name = .ok text := by
  simp [script, written, Text.decode?_encode]

/-- The host of a console is a host of prepared lines that loads files. -/
theorem host_eq (table : List (String × String)) (typed : ∀ line ∈ lines, Text.IsLine line)
    (written : surroundings.input = Text.encodeLines lines) :
    surroundings.host = { Host.prepared lines table surroundings.memory .none with
      scripts := surroundings.script } := by
  have input := host_input typed written
  unfold host at input ⊢
  simp only [Host.prepared] at input ⊢
  rw [input]

end Surroundings

/-- What a command line makes of the end of a script: all that was done, and the report of an error. -/
def Console.account : Except ProgramError Value × Machine → Departure
  | (result, machine) =>
    let events := machine.state.host.transcript.toList
    { code := match result with | .ok _ => 0 | .error _ => 1
      screen :=
        { output := String.join (events.map Event.shown)
          errors := match result with | .ok _ => "" | .error error => error.report ++ "\n"
          asked := events.filterMap fun
            | .loaded name => some name
            | _ => none } }

/-- A script on the command line ends as one on a new machine beside the same host. -/
theorem Console.script_eq_account (reach : Nat) (surroundings : Surroundings) (source : Source) :
    Console.script reach surroundings source false =
      ((Machine.fresh surroundings.host).run reach source).map Console.account := by
  unfold Console.script
  cases (Machine.fresh surroundings.host).run reach source with
  | none => rfl
  | some ended =>
    obtain ⟨result, machine⟩ := ended
    cases result with
    | ok value =>
      simp only [Screen.replay, Screen.blank, String.empty_append, List.nil_append]
      rfl
    | error error =>
      simp only [Screen.replay, Screen.blank, Screen.complain, String.empty_append,
        List.nil_append]
      rfl

/-- A script that prepared worlds have is found by its name. -/
theorem Host.scripts_prepared {lines : List String} {table : List (String × String)}
    {memory : Memory} {breakdown : Breakdown} (name : String) :
    (∀ text, (Host.prepared lines table memory breakdown).scripts name = .ok text ↔
        table.lookup name = some text) ∧
      ∀ reason, (Host.prepared lines table memory breakdown).scripts name = .error reason →
        table.lookup name = none := by
  simp only [Host.prepared]
  cases table.lookup name with
  | none => simp
  | some text => simp

/--
The two worlds agree: a script on the command line, with the files of a table and with lines written
to its input, ends as it does on a new machine beside the prepared lines and the scripts of the
table with as much room, as long as every script that is loaded there is one of them.
-/
theorem Console.run_prepared {reach : Nat} {surroundings : Surroundings} {lines : List String}
    {table : List (String × String)} {text : String}
    (typed : ∀ line ∈ lines, Text.IsLine line)
    (written : surroundings.input = Text.encodeLines lines)
    (saved : ∀ name script, table.lookup name = some script →
      surroundings.files name = some (Text.encode script))
    (named : ∀ result next,
      (Machine.fresh (.prepared lines table surroundings.memory .none)).run reach
        { name := scriptName, text } = some (result, next) →
      ∀ name, .loaded name ∈ next.state.host.transcript.toList → (table.lookup name).isSome) :
    Console.run reach { contents := some text, fromFile := false, pipeMode := false }
        surroundings =
      ((Machine.fresh (.prepared lines table surroundings.memory .none)).run reach
        { name := scriptName, text }).map Console.account := by
  have backed : Backed (Host.prepared lines table surroundings.memory .none).scripts
      surroundings.script := by
    intro name script found
    have listed := ((Host.scripts_prepared name).1 script).mp found
    exact Surroundings.script_of_encode (saved name script listed)
  have console : Console.run reach { contents := some text, fromFile := false, pipeMode := false }
      surroundings = Console.script reach surroundings { name := scriptName, text } false := rfl
  rw [console, Console.script_eq_account, Surroundings.host_eq table typed written]
  rcases Machine.run_beside backed reach { name := scriptName, text } with same | strayed
  · -- The files that the host of the console has make no difference to what it has done.
    rw [same, Option.map_map]
    rfl
  · -- Every script that was loaded is one of the table, so none was missing.
    obtain ⟨error, next, failed, name, reason, loaded, missing⟩ := strayed
    have listed := named _ next failed name loaded
    rw [(Host.scripts_prepared name).2 reason missing] at listed
    cases listed

/-- Lines of which the second one is an integer between blanks. -/
def answers : List String := ["x", " 7 ", "last"]

/-- A script that clears everything and writes the next line. -/
def scriptTable : List (String × String) := [("echo", "CLEAR()\nPRINT(INPUT())")]

/-- A program that reads an integer, loads the script, and divides by zero. -/
def dividing : String := "VAR n = INPUT_INT()\nRUN(\"echo\")\nPRINT(n / 0)"

/-- The lines and scripts as the input and the files of a command line. -/
def Surroundings.written : Surroundings :=
  { input := Text.encodeLines answers
    files := fun name => (scriptTable.lookup name).map Text.encode
    memory := .gibibyte }

/-- The program is rebuked for the first line, clears that, and fails behind the last one. -/
theorem Console.run_prepared_dividing :
    (∀ line ∈ answers, Text.IsLine line) ∧
      (∀ name script, scriptTable.lookup name = some script →
        Surroundings.written.files name = some (Text.encode script)) ∧
      (∀ result next, (Machine.fresh (.prepared answers scriptTable .gibibyte .none)).run 20
        { name := scriptName, text := dividing } = some (result, next) →
        ∀ name, .loaded name ∈ next.state.host.transcript.toList →
          (scriptTable.lookup name).isSome) ∧
      (Console.run 20 { contents := some dividing, fromFile := false, pipeMode := false }
        .written).map (fun departure => (departure.code, departure.screen.output)) =
        some (1, "'x' must be an integer. Try again!\n\x1b[2J\x1b[1;1Hlast\n") := by
  have typed : ∀ line ∈ answers, Text.IsLine line := by decide
  have saved : ∀ name script, scriptTable.lookup name = some script →
      Surroundings.written.files name = some (Text.encode script) := by
    intro name script listed
    simp [Surroundings.written, listed]
  -- The run is computed once, and its transcript looked through.
  have asked : (((Machine.fresh (.prepared answers scriptTable .gibibyte .none)).run 20
      { name := scriptName, text := dividing }).all fun ended =>
        ended.2.state.host.transcript.toList.all fun
          | .loaded name => (scriptTable.lookup name).isSome
          | _ => true) = true := by decide +kernel
  have named : ∀ result next, (Machine.fresh (.prepared answers scriptTable .gibibyte .none)).run 20
      { name := scriptName, text := dividing } = some (result, next) →
      ∀ name, .loaded name ∈ next.state.host.transcript.toList →
        (scriptTable.lookup name).isSome := by
    intro result next ended name loaded
    rw [ended, Option.all_some, List.all_eq_true] at asked
    exact asked _ loaded
  refine ⟨typed, saved, named, ?_⟩
  rw [Console.run_prepared typed rfl saved named]
  decide +kernel

end Scriptlet
