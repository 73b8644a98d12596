import Scriptlet.Console
import Scriptlet.Proofs.Session.Failure
import Scriptlet.Proofs.Text.Encoding

/-!
Sessions on a console, turn by turn: a line is read at the prompt, runs in the scope of the session,
and is answered. Prompts and programs take their lines from one input.
-/

namespace Scriptlet

/-- The file that an event asks for. -/
def Event.asked? : Event → Option String
  | .loaded name => some name
  | _ => none

/-- What a session answers to a line: nothing, the text of a result, or a report. -/
inductive Reply where
  | silent
  | echoed (text : String)
  | complained (report : String)

/--
A turn of a session: the line at the prompt, the lines that were taken while it ran, what its program
did to the world, and the answer.
-/
structure Turn where
  line : String
  taken : List String
  events : List Event
  reply : Reply

namespace Turn

/-- The lines of the input that a turn is about. -/
def lines (turn : Turn) : List String :=
  turn.line :: turn.taken

/-- What a turn shows, from its prompt on. -/
def output (turn : Turn) : String :=
  Console.prompt ++ String.join (turn.events.map Event.shown) ++
    match turn.reply with
    | .echoed text => text ++ "\n"
    | _ => ""

/-- What a turn shows of an error. -/
def errors (turn : Turn) : String :=
  match turn.reply with
  | .complained report => report ++ "\n"
  | _ => ""

/-- The files that were asked for in a turn. -/
def asked (turn : Turn) : List String :=
  turn.events.filterMap Event.asked?

end Turn

namespace Screen

/-- A console that goes on to show a turn. -/
def after (screen : Screen) (turn : Turn) : Screen :=
  { output := screen.output ++ turn.output
    errors := screen.errors ++ turn.errors
    asked := screen.asked ++ turn.asked }

/-- A console that goes on to show some turns, and then a prompt that meets the end of the input. -/
def through (screen : Screen) (turns : List Turn) : Screen :=
  { output := screen.output ++ String.join (turns.map Turn.output) ++ Console.prompt
    errors := screen.errors ++ String.join (turns.map Turn.errors)
    asked := screen.asked ++ turns.flatMap Turn.asked }

/-- Turns are shown one after another. -/
theorem through_cons (screen : Screen) (turn : Turn) (turns : List Turn) :
    screen.through (turn :: turns) = (screen.after turn).through turns := by
  simp [through, after, String.append_assoc]

/-- Without turns only the prompt is shown. -/
theorem through_nil (screen : Screen) : screen.through [] = screen.put Console.prompt := by
  simp [through, put]

end Screen

/-- The text that a session echoes: that of the only element of a list, and else that of the value. -/
inductive Store.Echoes (store : Store) : Value → String → Prop where
  | sole {list : ListId} {element : Value} {text : String}
    (elements : store.elements list = #[element]) (shown : store.quoted? element = some text) :
    Store.Echoes store (.list list) text
  | whole {value : Value} {text : String}
    (several : ∀ list element, value = .list list → store.elements list ≠ #[element])
    (shown : store.quoted? value = some text) : Store.Echoes store value text

/-- What a session answers to the result of a line: its text, or the report of an error. -/
inductive Store.Answers (store : Store) : Except ProgramError Value → Reply → Prop where
  | echoed {value : Value} {text : String} (echoes : store.Echoes value text) :
    Store.Answers store (.ok value) (.echoed text)
  | complained {error : ProgramError} :
    Store.Answers store (.error error) (.complained error.report)

/-- A host whose input can be read, and is text. -/
structure Host.Legible (host : Host) : Prop where
  breakdown : host.breakdown.read = none
  input : ∃ lines : List String, host.input = lines.map .ok

namespace Machine

/-- A machine when a line was read at the prompt: what is done from there on is recorded anew. -/
def prompted (machine : Machine) (rest : List (Except String String)) : Machine :=
  { machine with
    state.host := { machine.state.host with input := rest, transcript := #[] } }

/--
A line of a session runs as a program in the scope of the session. It takes lines from the front of
the input, each in a call of a function that reads lines, and nothing is undone of what it did before
it failed.
-/
structure Runs (session : ScopeId) (line : String) (machine : Machine) (taken : List String)
    (result : Except ProgramError Value) (next : Machine) : Prop where
  ended : ∃ reach, machine.runIn reach ⟨Console.sessionName, line⟩ session = some (result, next)
  input : machine.state.host.input = taken.map .ok ++ next.state.host.input
  asked : ∀ front read behind, taken = front ++ read :: behind →
    machine.Asks ⟨Console.sessionName, line⟩ session
      (behind.length + next.state.host.input.length)
  kept : ∀ error, result = .error error →
    machine.FailsKeeping ⟨Console.sessionName, line⟩ session next.state

end Machine

/--
The turns of a session from one machine to another. A blank line is passed over. Every other one runs
where the line before it has left off, whether that one failed or not.
-/
inductive Dialogue (session : ScopeId) : Machine → List Turn → Machine → Prop where
  | done {machine : Machine} : Dialogue session machine [] machine
  | blank {machine final : Machine} {line : String} {rest : List (Except String String)}
    {turns : List Turn} (read : machine.state.host.input = .ok line :: rest)
    (blank : line.toList.all Text.isBlank)
    (others : Dialogue session (machine.prompted rest) turns final) :
    Dialogue session machine (⟨line, [], [], .silent⟩ :: turns) final
  | answered {machine next final : Machine} {line : String}
    {rest : List (Except String String)} {taken : List String}
    {result : Except ProgramError Value} {reply : Reply} {turns : List Turn}
    (read : machine.state.host.input = .ok line :: rest)
    (typed : ¬ line.toList.all Text.isBlank)
    (runs : (machine.prompted rest).Runs session line taken result next)
    (answers : next.state.store.Answers result reply)
    (others : Dialogue session next turns final) :
    Dialogue session machine
      (⟨line, taken, next.state.host.transcript.toList, reply⟩ :: turns) final

/-- A session hangs at a line whose run never ends, or whose result has no text. -/
def Machine.Hangs (session : ScopeId) (machine : Machine) : Prop :=
  ∃ line rest, machine.state.host.input = .ok line :: rest ∧ ¬ line.toList.all Text.isBlank ∧
    ((∀ reach, (machine.prompted rest).runIn reach ⟨Console.sessionName, line⟩ session = none) ∨
      ∃ taken result next, (machine.prompted rest).Runs session line taken result next ∧
        ∀ reply, ¬ next.state.store.Answers result reply)

section

variable {store : Store} {value : Value} {text : String}

/-- A session echoes the text of the only element of a list, and else that of the value. -/
theorem Console.answer?_eq_some :
    Console.answer? store value = some text ↔ store.Echoes value text := by
  -- One case for each shape of the result.
  unfold Console.answer?
  constructor
  · intro answered
    split at answered
    · rename_i list
      split at answered
      · rename_i element sole
        exact .sole (Array.toList_inj.mp sole) answered
      · rename_i several
        refine .whole ?_ answered
        rintro _ element ⟨⟩ elements
        exact several element (congrArg Array.toList elements)
    · rename_i other
      exact .whole (fun list _ same => absurd same (other list)) answered
  · rintro (⟨elements, shown⟩ | ⟨several, shown⟩)
    · simpa only [elements] using shown
    · split
      · rename_i list
        split
        · rename_i element sole
          exact absurd (Array.toList_inj.mp sole) (several list element rfl)
        · exact shown
      · exact shown

/-- What is blank throughout is all gone between its first and its last character. -/
theorem Text.isEmpty_trim (chars : List Char) : (trim chars).isEmpty = chars.all isBlank := by
  rw [Bool.eq_iff_iff, List.isEmpty_iff, trim, dropLastWhile, List.reverse_eq_nil_iff,
    List.dropWhile_eq_nil_iff, List.all_eq_true]
  simp only [List.mem_reverse]
  -- The blanks in front are blank anyway, so only what stands behind them matters.
  constructor
  · intro rear c member
    rw [← List.takeWhile_append_dropWhile (p := isBlank) (l := chars)] at member
    rcases List.mem_append.mp member with front | behind
    · exact List.mem_takeWhile_imp front
    · exact rear c behind
  · exact fun all c member => all c ((List.dropWhile_suffix isBlank).subset member)

/-- The answer of a session, if the result has a text. -/
def Console.reply? (store : Store) : Except ProgramError Value → Option Reply
  | .ok value => (answer? store value).map .echoed
  | .error error => some (.complained error.report)

/-- A session answers a result by its text, or an error by its report. -/
theorem Console.reply?_eq_some {result : Except ProgramError Value} {reply : Reply} :
    Console.reply? store result = some reply ↔ store.Answers result reply := by
  cases result with
  | ok value =>
    rw [reply?, Option.map_eq_some_iff]
    constructor
    · rintro ⟨text, answered, rfl⟩
      exact .echoed (answer?_eq_some.mp answered)
    · rintro ⟨echoes⟩
      exact ⟨_, answer?_eq_some.mpr echoes, rfl⟩
  | error error =>
    constructor
    · rintro ⟨⟩
      exact .complained
    · rintro ⟨⟩
      rfl

end

namespace Host.Legible

variable {host after : Host}

/-- A line that is read is the first one of the input. -/
theorem readLine_cons {line : Except String String} {rest : List (Except String String)}
    (legible : host.Legible) (input : host.input = line :: rest) :
    ∃ text, line = .ok text ∧
      host.readLine = (.ok (some text), { host with input := rest }) := by
  obtain ⟨breakdown, lines, texts⟩ := legible
  rw [input] at texts
  cases lines with
  | nil => cases texts
  | cons text lines =>
    obtain ⟨rfl, rfl⟩ := List.cons.inj texts
    refine ⟨text, rfl, ?_⟩
    simp only [readLine, breakdown, input, Except.map]

/-- At the end of the input nothing is read. -/
theorem readLine_nil (legible : host.Legible) (input : host.input = []) :
    host.readLine = (.ok none, host) := by
  simp only [readLine, legible.breakdown, input]

/-- What is left when lines were taken is still legible. -/
theorem of_append (legible : host.Legible) {taken : List (Except String String)}
    (breakdown : after.breakdown = host.breakdown) (input : host.input = taken ++ after.input) :
    after.Legible ∧ ∃ texts : List String, taken = texts.map .ok := by
  -- Parts of lines of text are lines of text.
  obtain ⟨readable, lines, texts⟩ := legible
  obtain ⟨front, rear, -, fronts, rears⟩ := List.map_eq_append_iff.mp (texts.symm.trans input)
  exact ⟨⟨breakdown ▸ readable, rear, rears.symm⟩, front, fronts.symm⟩

end Host.Legible

namespace Machine

variable {session : ScopeId} {machine next : Machine} {line : String} {reach : Nat}
  {result : Except ProgramError Value}

/-- A machine with a legible host has one when it has read a line at the prompt. -/
theorem legible_prompted {first : Except String String} {rest : List (Except String String)}
    (legible : machine.state.host.Legible) (input : machine.state.host.input = first :: rest) :
    (machine.prompted rest).state.host.Legible := by
  obtain ⟨breakdown, lines, texts⟩ := legible
  refine ⟨breakdown, lines.tail, ?_⟩
  rw [List.map_tail, ← texts, input]
  rfl

/-- A line of a session that ends has taken lines, and leaves a legible host behind. -/
theorem exists_runs (legible : machine.state.host.Legible)
    (ended : machine.runIn reach ⟨Console.sessionName, line⟩ session = some (result, next)) :
    next.state.host.Legible ∧ ∃ taken, machine.Runs session line taken result next := by
  obtain ⟨⟨breakdown, lines, input⟩, asked⟩ := runIn_takes ended
  obtain ⟨legible, taken, rfl⟩ := legible.of_append breakdown input
  refine ⟨legible, taken, ⟨reach, ended⟩, input, ?_, ?_⟩
  · rintro front read behind rfl
    apply asked _ (Nat.le_add_left _ _)
    simp only [input, List.map_append, List.map_cons, List.length_append, List.length_cons,
      List.length_map]
    omega
  · rintro error rfl
    exact runIn_failsKeeping ended

end Machine

namespace Console

variable {session : ScopeId} {machine next final : Machine} {line : String} {reach prompts : Nat}
  {rest : List (Except String String)} {screen : Screen} {turns : List Turn}

/-- A session ends where its prompt meets the end of the input. -/
theorem converse_nil (legible : machine.state.host.Legible) (input : machine.state.host.input = []) :
    converse reach session (prompts + 1) machine screen =
      some { code := 0, screen := screen.through [] } := by
  rw [converse, legible.readLine_nil input, Screen.through_nil]

/-- A blank line is passed over. -/
theorem converse_blank (legible : machine.state.host.Legible)
    (input : machine.state.host.input = .ok line :: rest) (blank : line.toList.all Text.isBlank) :
    converse reach session (prompts + 1) machine screen =
      converse reach session prompts (machine.prompted rest)
        (screen.after ⟨line, [], [], .silent⟩) := by
  obtain ⟨_, ⟨⟩, read⟩ := legible.readLine_cons input
  have shown : screen.put prompt = screen.after ⟨line, [], [], .silent⟩ := by
    simp [Screen.put, Screen.after, Turn.output, Turn.errors, Turn.asked]
  rw [converse, read]
  simp only [Text.isEmpty_trim, blank, ↓reduceIte, shown]
  rfl

/-- A line that is not blank runs, and is answered. -/
theorem converse_typed (legible : machine.state.host.Legible)
    (input : machine.state.host.input = .ok line :: rest)
    (typed : ¬ line.toList.all Text.isBlank) (taken : List String) :
    converse reach session (prompts + 1) machine screen =
      ((machine.prompted rest).runIn reach ⟨sessionName, line⟩ session).bind fun ended =>
        (reply? ended.2.state.store ended.1).bind fun reply =>
          converse reach session prompts ended.2
            (screen.after ⟨line, taken, ended.2.state.host.transcript.toList, reply⟩) := by
  obtain ⟨_, ⟨⟩, read⟩ := legible.readLine_cons input
  rw [converse, read]
  simp only [Text.isEmpty_trim, typed, Bool.false_eq_true, ↓reduceIte, Machine.prompted]
  -- The run starts on the machine that was prompted.
  generalize Machine.runIn reach ⟨sessionName, line⟩ session _ = ran
  cases ran with
  | none => rfl
  | some ended =>
    obtain ⟨result, next⟩ := ended
    cases result with
    | error error =>
      have shown : ((screen.put prompt).replay next.state.host.transcript.toList).complain
          error.report = screen.after
            ⟨line, taken, next.state.host.transcript.toList, .complained error.report⟩ := by
        simp [Screen.put, Screen.replay, Screen.complain, Screen.after, Turn.output, Turn.errors,
          Turn.asked, String.append_assoc]
        rfl
      simp only [Option.bind_some, reply?, shown]
    | ok value =>
      have shown (text : String) : ((screen.put prompt).replay
          next.state.host.transcript.toList).put (text ++ "\n") = screen.after
            ⟨line, taken, next.state.host.transcript.toList, .echoed text⟩ := by
        simp [Screen.put, Screen.replay, Screen.after, Turn.output, Turn.errors, Turn.asked,
          String.append_assoc]
        rfl
      cases answered : answer? next.state.store value with
      | none => simp [reply?, answered]
      | some text => simp [reply?, answered, shown]

/-- A session that ends has had its turns up to the end of the input. -/
theorem exists_dialogue {departure : Departure} (legible : machine.state.host.Legible)
    (ended : converse reach session prompts machine screen = some departure) :
    ∃ turns final, Dialogue session machine turns final ∧ final.state.host.input = [] ∧
      departure = { code := 0, screen := screen.through turns } := by
  -- The induction is on the prompts.
  induction prompts generalizing machine screen with
  | zero => cases ended
  | succ prompts ih =>
    cases input : machine.state.host.input with
    | nil =>
      rw [converse_nil legible input] at ended
      exact ⟨[], machine, .done, input, (Option.some.inj ended).symm⟩
    | cons line rest =>
      obtain ⟨line, rfl, -⟩ := legible.readLine_cons input
      have left := Machine.legible_prompted legible input
      by_cases blank : line.toList.all Text.isBlank
      · rw [converse_blank legible input blank] at ended
        obtain ⟨turns, final, others, atEnd, rfl⟩ := ih left ended
        exact ⟨_, final, .blank input blank others, atEnd, by rw [Screen.through_cons]⟩
      · cases ran : (machine.prompted rest).runIn reach ⟨sessionName, line⟩ session with
        | none =>
          rw [converse_typed legible input blank [], ran] at ended
          cases ended
        | some last =>
          -- The run leaves a legible host behind, so that the rest is a session again.
          obtain ⟨result, next⟩ := last
          obtain ⟨left, taken, runs⟩ := Machine.exists_runs left ran
          rw [converse_typed legible input blank taken, ran, Option.bind_some] at ended
          obtain ⟨reply, answered, ended⟩ := Option.bind_eq_some_iff.mp ended
          obtain ⟨turns, final, others, atEnd, rfl⟩ := ih left ended
          exact ⟨_, final, .answered input blank runs (reply?_eq_some.mp answered) others, atEnd,
            by rw [Screen.through_cons]⟩

end Console

/-- A line of the session leaves less of the input than there was before its prompt. -/
theorem Machine.Runs.length_lt {session : ScopeId} {line : String} {machine next : Machine}
    {rest : List (Except String String)} {taken : List String}
    {result : Except ProgramError Value}
    (runs : (machine.prompted rest).Runs session line taken result next) :
    next.state.host.input.length ≤ rest.length := by
  have input := congrArg List.length runs.input
  rw [List.length_append] at input
  exact Nat.le.intro (by rw [Nat.add_comm]; exact input.symm)

namespace Dialogue

variable {session : ScopeId} {machine final : Machine} {turns : List Turn}

/-- The turns of a session take the lines of the input, one after another. -/
theorem lines (dialogue : Dialogue session machine turns final) :
    machine.state.host.input = (turns.flatMap Turn.lines).map .ok ++ final.state.host.input := by
  -- The induction goes along the turns.
  induction dialogue with
  | done => rfl
  | blank read _ _ ih =>
    rw [read]
    exact congrArg _ ih
  | @answered machine next final line rest taken _ _ turns read _ runs _ _ ih =>
    have left : rest = taken.map .ok ++ next.state.host.input := runs.input
    rw [read, left, ih]
    simp [Turn.lines]

/-- The turns of a session up to the end of the input are shown by it, if it may reach so far. -/
theorem converse (dialogue : Dialogue session machine turns final)
    (legible : machine.state.host.Legible) (atEnd : final.state.host.input = []) :
    ∃ reach, ∀ further, reach ≤ further → ∀ prompts, machine.state.host.input.length < prompts →
      ∀ screen, Console.converse further session prompts machine screen =
        some { code := 0, screen := screen.through turns } := by
  -- The induction goes along the turns; of all reaches that they need the greatest is enough.
  induction dialogue with
  | done =>
    refine ⟨0, fun further _ prompts enough screen => ?_⟩
    obtain ⟨prompts, rfl⟩ : ∃ less, prompts = less + 1 := ⟨prompts - 1, by omega⟩
    exact Console.converse_nil legible atEnd
  | blank read blank _ ih =>
    have left := Machine.legible_prompted legible read
    obtain ⟨reach, ends⟩ := ih left atEnd
    refine ⟨reach, fun further far prompts enough screen => ?_⟩
    rw [read, List.length_cons] at enough
    obtain ⟨prompts, rfl⟩ : ∃ less, prompts = less + 1 := ⟨prompts - 1, by omega⟩
    rw [Console.converse_blank legible read blank, Screen.through_cons]
    exact ends further far prompts (Nat.lt_of_succ_lt_succ enough) _
  | @answered machine next final line rest taken result reply turns read typed runs answers _ ih =>
    have left := Machine.legible_prompted legible read
    obtain ⟨needed, ran⟩ := runs.ended
    obtain ⟨legible', -⟩ := Machine.exists_runs left ran
    obtain ⟨reach, ends⟩ := ih legible' atEnd
    refine ⟨max needed reach, fun further far prompts enough screen => ?_⟩
    rw [read, List.length_cons] at enough
    obtain ⟨prompts, rfl⟩ : ∃ less, prompts = less + 1 := ⟨prompts - 1, by omega⟩
    rw [Console.converse_typed legible read typed taken,
      Machine.runIn_mono (le_of_max_le_left far) ran, Screen.through_cons]
    simp only [Option.bind_some, Console.reply?_eq_some.mpr answers]
    exact ends further (le_of_max_le_right far) prompts
      (Nat.lt_of_le_of_lt runs.length_lt (Nat.lt_of_succ_lt_succ enough)) _

/-- A session comes to the end of the input, or to a line at which it hangs. -/
theorem ends_or_hangs (session : ScopeId) {machine : Machine}
    (legible : machine.state.host.Legible) :
    (∃ turns final, Dialogue session machine turns final ∧ final.state.host.input = []) ∨
      ∃ turns stuck, Dialogue session machine turns stuck ∧ stuck.Hangs session := by
  -- The induction is on how many lines are left.
  induction size : machine.state.host.input.length using Nat.strong_induction_on
    generalizing machine with
  | _ size ih =>
    cases input : machine.state.host.input with
    | nil => exact .inl ⟨[], machine, .done, input⟩
    | cons line rest =>
      obtain ⟨line, rfl, -⟩ := legible.readLine_cons input
      have left := Machine.legible_prompted legible input
      rw [input, List.length_cons] at size
      by_cases blank : line.toList.all Text.isBlank
      · obtain ⟨turns, final, others, atEnd⟩ | ⟨turns, stuck, others, hangs⟩ :=
          ih rest.length (by omega) left rfl
        · exact .inl ⟨_, final, .blank input blank others, atEnd⟩
        · exact .inr ⟨_, stuck, .blank input blank others, hangs⟩
      · by_cases ends : ∃ reach result next reply,
          (machine.prompted rest).runIn reach ⟨Console.sessionName, line⟩ session =
            some (result, next) ∧ next.state.store.Answers result reply
        · obtain ⟨reach, result, next, reply, ran, answers⟩ := ends
          obtain ⟨legible', taken, runs⟩ := Machine.exists_runs left ran
          have fewer := runs.length_lt
          obtain ⟨turns, final, others, atEnd⟩ | ⟨turns, stuck, others, hangs⟩ :=
            ih next.state.host.input.length (by omega) legible' rfl
          · exact .inl ⟨_, final, .answered input blank runs answers others, atEnd⟩
          · exact .inr ⟨_, stuck, .answered input blank runs answers others, hangs⟩
        · -- Either no run ends, or one has a result without an answer.
          refine .inr ⟨[], machine, .done, line, rest, input, blank, ?_⟩
          by_cases cut : ∀ reach,
              (machine.prompted rest).runIn reach ⟨Console.sessionName, line⟩ session = none
          · exact .inl cut
          · obtain ⟨reach, ran⟩ := not_forall.mp cut
            obtain ⟨⟨result, next⟩, ran⟩ := Option.ne_none_iff_exists'.mp ran
            obtain ⟨-, taken, runs⟩ := Machine.exists_runs left ran
            exact .inr ⟨taken, result, next, runs, fun reply answers =>
              ends ⟨reach, result, next, reply, ran, answers⟩⟩

end Dialogue

/-- The host of a console has the lines of the input, without their line ends. -/
theorem Surroundings.input_of_splits {surroundings : Surroundings} {text : String}
    {lines : List String} (valid : Text.decode? surroundings.input = some text)
    (split : Text.Splits text lines) :
    surroundings.host.input = (lines.map Text.dropLineEnds).map .ok := by
  rw [host, Text.eq_encode_of_decode? valid, split.byteLines_encode, List.map_map, List.map_map]
  apply List.map_congr_left
  intro line _
  simp only [Function.comp_apply, Text.decode?_encode]

/-- Without a script on the command line a session is held, with a prompt for each line at least. -/
theorem Console.run_eq_converse {invocation : Invocation} {surroundings : Surroundings}
    {session : ScopeId} {machine : Machine} (alone : invocation.contents = none)
    (opened : (Machine.fresh surroundings.host).addScope
      (Machine.fresh surroundings.host).globals = (session, machine)) (reach : Nat) :
    Console.run reach invocation surroundings =
      converse reach session (machine.state.host.input.length + 1) machine .blank := by
  rw [Console.run, alone]
  show Console.session reach surroundings = _
  simp only [Console.session, opened]

/-- A console that has shown nothing but some turns. -/
theorem Screen.blank_through (turns : List Turn) :
    Screen.blank.through turns =
      { output := String.join (turns.map Turn.output) ++ Console.prompt
        errors := String.join (turns.map Turn.errors)
        asked := turns.flatMap Turn.asked } := by
  simp [through, blank]

/--
A session on a console, whatever text its input is. The input is split at newlines, and its lines are
those of the turns, in order: each is read at a prompt, or taken by the program of the line before it.
The output is what the turns show, one after another, and a last prompt; the errors are the reports of
the lines that failed. A session that does not end so has come to a line at which it hangs.
-/
theorem Console.run_session {invocation : Invocation} {surroundings : Surroundings} {text : String}
    {session : ScopeId} {machine : Machine} (alone : invocation.contents = none)
    (valid : Text.decode? surroundings.input = some text)
    (opened : (Machine.fresh surroundings.host).addScope
      (Machine.fresh surroundings.host).globals = (session, machine)) :
    ∃ lines, Text.Splits text lines ∧
      (∀ departure, (∃ reach, Console.run reach invocation surroundings = some departure) ↔
        ∃ turns final, Dialogue session machine turns final ∧ final.state.host.input = [] ∧
          turns.flatMap Turn.lines = lines.map Text.dropLineEnds ∧
          departure =
            { code := 0
              screen :=
                { output := String.join (turns.map Turn.output) ++ Console.prompt
                  errors := String.join (turns.map Turn.errors)
                  asked := turns.flatMap Turn.asked } }) ∧
      ((∃ reach departure, Console.run reach invocation surroundings = some departure) ∨
        ∃ turns stuck, Dialogue session machine turns stuck ∧ stuck.Hangs session) := by
  obtain ⟨lines, split⟩ := Text.exists_splits text
  have host : machine.state.host = surroundings.host :=
    congrArg (fun opened => opened.2.state.host) opened.symm
  have input : machine.state.host.input = (lines.map Text.dropLineEnds).map .ok := by
    rw [host, Surroundings.input_of_splits valid split]
  have legible : machine.state.host.Legible :=
    ⟨congrArg (fun host => host.breakdown.read) host, _, input⟩
  have run := run_eq_converse alone opened
  have ends {turns : List Turn} {final : Machine}
      (dialogue : Dialogue session machine turns final) (atEnd : final.state.host.input = []) :
      ∃ reach, Console.run reach invocation surroundings =
        some { code := 0, screen := Screen.blank.through turns } := by
    obtain ⟨reach, ended⟩ := dialogue.converse legible atEnd
    exact ⟨reach, (run reach).trans (ended reach le_rfl _ (Nat.lt_succ_self _) _)⟩
  -- A session that ends has had its turns, and turns up to the end are a session that ends.
  refine ⟨lines, split, fun departure => ⟨?_, ?_⟩, ?_⟩
  · rintro ⟨reach, ended⟩
    rw [run] at ended
    obtain ⟨turns, final, dialogue, atEnd, rfl⟩ := exists_dialogue legible ended
    refine ⟨turns, final, dialogue, atEnd, ?_, by rw [Screen.blank_through]⟩
    have taken := dialogue.lines
    rw [input, atEnd, List.append_nil] at taken
    exact (List.map_injective_iff.mpr (fun _ _ => Except.ok.inj) taken).symm
  · rintro ⟨turns, final, dialogue, atEnd, -, rfl⟩
    rw [← Screen.blank_through]
    exact ends dialogue atEnd
  · obtain ⟨turns, final, dialogue, atEnd⟩ | hangs := Dialogue.ends_or_hangs session legible
    · obtain ⟨reach, ended⟩ := ends dialogue atEnd
      exact .inl ⟨reach, _, ended⟩
    · exact .inr hangs

/-- A command line that asks for a session. -/
def Invocation.sessionOnly : Invocation :=
  { contents := none, fromFile := false, pipeMode := false }

/-- Lines for an integer that is read at the second attempt, nothing, a failure, and a sum. -/
def Surroundings.conversing : Surroundings :=
  { input := Text.encode "VAR n = INPUT_INT()\r\nseven\n7\n \nn / 0\nn + 1"
    files := fun _ => none
    memory := .gibibyte }

/-- The scope of a session with these lines, and the machine that it starts on. -/
def Surroundings.conversation : ScopeId × Machine :=
  (Machine.fresh conversing.host).addScope (Machine.fresh conversing.host).globals

/-- The program of the first line takes two lines, and the last line finds what it has bound. -/
theorem Console.run_session_recovering :
    ∃ text lines turns final, Text.decode? Surroundings.conversing.input = some text ∧
      Text.Splits text lines ∧
      Dialogue Surroundings.conversation.1 Surroundings.conversation.2 turns final ∧
      final.state.host.input = [] ∧
      turns.flatMap Turn.lines = lines.map Text.dropLineEnds ∧
      String.join (turns.map Turn.output) ++ Console.prompt =
        "basil > 'seven' must be an integer. Try again!\n7\nbasil > basil > basil > 8\nbasil > " := by
  have valid := Text.decode?_encode "VAR n = INPUT_INT()\r\nseven\n7\n \nn / 0\nn + 1"
  have shown : (Console.run 9 .sessionOnly .conversing).map (·.screen.output) =
      some ("basil > 'seven' must be an integer. Try again!\n7\n" ++
        "basil > basil > basil > 8\nbasil > ") := by decide +kernel
  obtain ⟨departure, ended, output⟩ := Option.map_eq_some_iff.mp shown
  obtain ⟨lines, split, told, -⟩ := @Console.run_session .sessionOnly .conversing _
    Surroundings.conversation.1 Surroundings.conversation.2 rfl valid rfl
  obtain ⟨turns, final, dialogue, atEnd, taken, rfl⟩ := (told departure).mp ⟨9, ended⟩
  exact ⟨_, lines, turns, final, valid, split, dialogue, atEnd, taken, output⟩

end Scriptlet
