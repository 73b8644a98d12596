import Scriptlet.Machine
import Scriptlet.Proofs.Numeric.Written
import Scriptlet.Proofs.Store.Access

/-!
Asking for an integer. Lines that write none are taken from the input and rebuked one after another,
until a line writes one, there are no more lines, or a rebuke cannot be written.
-/

namespace Scriptlet

/-- What a line that writes no integer is answered. -/
def rebuke (line : String) : Event :=
  .wrote s!"'{line}' must be an integer. Try again!"

/-- A state with other lines to read, after some lines were rebuked; its store is as before. -/
def State.asked (state : State) (rebuked left : List String) : State :=
  { state with host := { state.host with
      input := left.map .ok
      transcript := state.host.transcript ++ (rebuked.map rebuke).toArray } }

/-- How a call that asks for an integer fails: inside of the function, at the place of the call. -/
def Frame.unanswered (frame : Frame) (site : Span) (cause : EvalError.Cause) : Exit :=
  .failed ((frame.enter Builtin.inputInt.name site).error cause site)

/-- Nothing is asked yet. -/
theorem State.asked_nil {state : State} {lines : List String}
    (queue : state.host.input = lines.map .ok) : state.asked [] lines = state := by
  obtain ⟨store, input, scripts, breakdown, transcript⟩ := state
  obtain rfl : input = lines.map .ok := queue
  simp [asked]

namespace Eval

variable {frame : Frame} {site : Span} {state : State} {line : String}
  {rebuked front left lines : List String} {word : Int64} {bound : Nat}

/-- Without a line there is no integer to read. -/
theorem readInteger_nil (readable : state.host.breakdown.read = none) :
    readInteger frame site (bound + 1) (state.asked rebuked []) =
      .exit (frame.error .inputClosed site) (state.asked rebuked []) := by
  simp [readInteger, Action.bind_apply, Action.readLine, Host.readLine, State.asked, readable]

/-- A line is taken from the front of the input. -/
theorem readLine_asked (readable : state.host.breakdown.read = none) :
    Action.readLine frame site (state.asked rebuked (line :: left)) =
      .value line (state.asked rebuked left) := by
  simp [Action.readLine, Host.readLine, State.asked, readable, Except.map]

/-- A line that writes an integer is taken, and nothing else happens. -/
theorem readInteger_writes (readable : state.host.breakdown.read = none)
    (writes : Text.WritesWord line word) :
    readInteger frame site (bound + 1) (state.asked rebuked (line :: left)) =
      .value word (state.asked rebuked left) := by
  simp only [readInteger, Action.bind_apply, readLine_asked readable,
    Text.readWord_trim_iff.mpr writes, Action.pure_apply]

/-- A line that writes none is taken, and a rebuke is written before another line is read. -/
theorem readInteger_other (readable : state.host.breakdown.read = none)
    (other : ∀ word, ¬ Text.WritesWord line word) :
    readInteger frame site (bound + 1) (state.asked rebuked (line :: left)) =
      (do
        Action.perform frame site (Host.writeLine s!"'{line}' must be an integer. Try again!")
        readInteger frame site bound) (state.asked rebuked left) := by
  have unread : Numeric.readWord (Text.trim line.toList) = none := by
    refine Option.eq_none_iff_forall_ne_some.mpr fun word read => ?_
    exact other word (Text.readWord_trim_iff.mp read)
  simp only [readInteger, Action.bind_apply, readLine_asked readable, unread]

/-- Lines that write no integer are taken and rebuked in order. -/
theorem readInteger_rebuked (readable : state.host.breakdown.read = none)
    (writable : state.host.breakdown.write = none)
    (others : ∀ line ∈ front, ∀ word, ¬ Text.WritesWord line word) :
    readInteger frame site (front.length + bound) (state.asked rebuked (front ++ left)) =
      readInteger frame site bound (state.asked (rebuked ++ front) left) := by
  -- The induction goes along the lines; a rebuke is behind all that were written before it.
  induction front generalizing rebuked with
  | nil => simp
  | cons line front ih =>
    rw [List.forall_mem_cons] at others
    have written : Action.perform frame site
        (Host.writeLine s!"'{line}' must be an integer. Try again!")
        (state.asked rebuked (front ++ left)) =
          .value () (state.asked (rebuked ++ [line]) (front ++ left)) := by
      simp [Action.perform, Host.writeLine, State.asked, writable, rebuke]
    have behind := @ih (rebuked ++ [line]) others.2
    rw [List.append_assoc, List.singleton_append] at behind
    rw [List.length_cons, Nat.add_right_comm, List.cons_append,
      readInteger_other readable others.1, Action.bind_apply, written]
    exact behind

/-- Where nothing can be written, the first line that writes no integer ends the asking. -/
theorem readInteger_broken {reason : String} (readable : state.host.breakdown.read = none)
    (broken : state.host.breakdown.write = some reason)
    (other : ∀ word, ¬ Text.WritesWord line word) :
    readInteger frame site (bound + 1) (state.asked rebuked (line :: left)) =
      .exit (frame.error (.outputFailed reason) site) (state.asked rebuked left) := by
  have failed (text : String) : Action.perform frame site (Host.writeLine text)
      (state.asked rebuked left) =
        .exit (frame.error (.outputFailed reason) site) (state.asked rebuked left) := by
    simp [Action.perform, Host.writeLine, State.asked, broken]
  rw [readInteger_other readable other, Action.bind_apply, failed]

/-- A call of a function that asks for an integer reads no more lines than there are. -/
theorem evaluate_inputInt {depth : Nat} {callee : Node} {before : State}
    (called : evaluate depth callee frame before = .value (.builtin .inputInt) state)
    (queue : state.host.input = lines.map .ok) :
    evaluate (depth + 1) (.call site callee []) frame before =
      match readInteger (frame.enter Builtin.inputInt.name site) site (lines.length + 1)
          (state.asked [] lines) with
      | .value word after => .value (.number (.int word)) after
      | .exit error after => .exit (.failed error) after
      | .unfinished => .unfinished := by
  have length : state.host.input.length = lines.length := by rw [queue, List.length_map]
  -- The call is the function with as many arguments as it has parameters.
  have call : evaluate (depth + 1) (.call site callee []) frame before =
      Action.mapExit Exit.failed
        (inputInteger (frame.enter Builtin.inputInt.name site) site) state := by
    show Eval.call builtin (evaluate depth) frame site callee [] before = _
    simp only [Eval.call, Action.bind_apply, called, values]
    rfl
  rw [call, State.asked_nil queue, Action.mapExit, inputInteger, Action.bind_apply,
    Action.linesLeft, length]
  simp only [Action.bind_apply]
  cases readInteger (frame.enter Builtin.inputInt.name site) site (lines.length + 1) state <;> rfl

end Eval

/-- Of lines one of which writes an integer, the first one that does comes behind others. -/
theorem Text.exists_first_writesWord {lines : List String}
    (some : ∃ line ∈ lines, ∃ word, WritesWord line word) :
    ∃ front line left word, lines = front ++ line :: left ∧
      (∀ other ∈ front, ∀ word, ¬ WritesWord other word) ∧ WritesWord line word := by
  obtain ⟨line, member, word, writes⟩ := some
  have found : (lines.find? fun line => (Numeric.readWord (trim line.toList)).isSome).isSome := by
    refine List.find?_isSome.mpr ⟨line, member, ?_⟩
    rw [readWord_trim_iff.mpr writes]
    rfl
  obtain ⟨line, first⟩ := Option.isSome_iff_exists.mp found
  obtain ⟨reads, front, left, split, others⟩ := List.find?_eq_some_iff_append.mp first
  obtain ⟨word, read⟩ := Option.isSome_iff_exists.mp reads
  refine ⟨front, line, left, word, split, fun other member word writes => ?_,
    readWord_trim_iff.mp read⟩
  simpa [readWord_trim_iff.mpr writes] using others other member

/--
What asking for an integer takes from the input and answers. If a line writes an integer, the lines
before it are rebuked and it is the value; if none does, all lines are rebuked and the input is
closed. Where nothing can be written, only the first line is taken.
-/
theorem inputInt_lines (site : Span) {depth : Nat} {callee : Node} {frame : Frame}
    {before state : State} {lines : List String}
    (called : evaluate depth callee frame before = .value (.builtin .inputInt) state)
    (queue : state.host.input = lines.map .ok) (readable : state.host.breakdown.read = none) :
    (state.host.breakdown.write = none →
      ((∃ line ∈ lines, ∃ word, Text.WritesWord line word) →
        ∃ front line left word, lines = front ++ line :: left ∧
          (∀ other ∈ front, ∀ word, ¬ Text.WritesWord other word) ∧
          Text.WritesWord line word ∧
          evaluate (depth + 1) (.call site callee []) frame before =
            .value (.number (.int word)) (state.asked front left)) ∧
      ((∀ line ∈ lines, ∀ word, ¬ Text.WritesWord line word) →
        evaluate (depth + 1) (.call site callee []) frame before =
          .exit (frame.unanswered site .inputClosed) (state.asked lines []))) ∧
    ∀ reason, state.host.breakdown.write = some reason →
      (lines = [] → evaluate (depth + 1) (.call site callee []) frame before =
        .exit (frame.unanswered site .inputClosed) (state.asked [] [])) ∧
      ∀ line left, lines = line :: left →
        (∀ word, Text.WritesWord line word →
          evaluate (depth + 1) (.call site callee []) frame before =
            .value (.number (.int word)) (state.asked [] left)) ∧
        ((∀ word, ¬ Text.WritesWord line word) →
          evaluate (depth + 1) (.call site callee []) frame before =
            .exit (frame.unanswered site (.outputFailed reason)) (state.asked [] left)) := by
  rw [Eval.evaluate_inputInt called queue]
  refine ⟨fun writable => ⟨fun some => ?_, fun none => ?_⟩, fun reason broken => ⟨?_, ?_⟩⟩
  · obtain ⟨front, line, left, word, rfl, others, writes⟩ := Text.exists_first_writesWord some
    refine ⟨front, line, left, word, rfl, others, writes, ?_⟩
    rw [List.length_append, Nat.add_assoc, Eval.readInteger_rebuked readable writable others,
      List.nil_append, Eval.readInteger_writes readable writes]
  · -- All lines are in front of no line at all.
    have whole : state.asked [] lines = state.asked [] (lines ++ []) := by rw [List.append_nil]
    rw [whole, Eval.readInteger_rebuked readable writable none, List.nil_append,
      Eval.readInteger_nil readable]
    rfl
  · rintro rfl
    rw [Eval.readInteger_nil readable]
    rfl
  · rintro line left rfl
    refine ⟨fun word writes => ?_, fun other => ?_⟩
    · rw [Eval.readInteger_writes readable writes]
    · rw [Eval.readInteger_broken readable broken other]
      rfl

/-- A machine before a line that writes no integer, one that writes ten, and one more. -/
def hesitating (write : Option String) : Machine :=
  .fresh (.prepared ["ten", " 10 ", "11"] [] .gibibyte { Breakdown.none with write })

/-- The place of the call that asks. -/
def asking : Span :=
  { source := { name := "asking", text := "INPUT_INT()" }, start := .start, stop := ⟨11, 0, 11⟩ }

/-- Where rebukes can be written the second line is the value, and otherwise the first one fails. -/
theorem inputInt_lines_hesitating :
    evaluate 2 (.call asking (.reference asking "INPUT_INT") []) (.ofProgram ⟨0⟩ ⟨0⟩)
        (hesitating none).state =
      .value (.number (.int 10)) ((hesitating none).state.asked ["ten"] ["11"]) ∧
    evaluate 2 (.call asking (.reference asking "INPUT_INT") []) (.ofProgram ⟨0⟩ ⟨0⟩)
        (hesitating (some "full")).state =
      .exit ((Frame.ofProgram ⟨0⟩ ⟨0⟩).unanswered asking (.outputFailed "full"))
        ((hesitating (some "full")).state.asked [] [" 10 ", "11"]) := by
  have called (write : Option String) : evaluate 1 (.reference asking "INPUT_INT")
      (.ofProgram ⟨0⟩ ⟨0⟩) (hesitating write).state =
        .value (.builtin .inputInt) (hesitating write).state := by
    have bound : (hesitating write).state.store.binding? ⟨0⟩ "INPUT_INT" =
        some (.builtin .inputInt) := rfl
    show Action.mapExit Exit.failed (Eval.reference _ _ _) _ = _
    simp only [Action.mapExit, Eval.reference, Action.bind_apply, Action.look_apply,
      Frame.ofProgram, Store.lookup_of_binding? bound, Action.pure_apply]
  have queue (write : Option String) :
      (hesitating write).state.host.input = ["ten", " 10 ", "11"].map .ok := rfl
  have ten : ∀ word, ¬ Text.WritesWord "ten" word := by
    intro word writes
    cases (Text.readWord_trim_iff.mpr writes).symm.trans (by decide : _ = none)
  have digits : Text.WritesWord " 10 " 10 := Text.readWord_trim_iff.mp (by decide)
  constructor
  · have present : " 10 " ∈ ["ten", " 10 ", "11"] := by decide
    obtain ⟨front, line, left, word, split, others, writes, value⟩ :=
      ((inputInt_lines asking (called none) (queue none) rfl).1 rfl).1 ⟨_, present, 10, digits⟩
    -- The first line cannot be the one that is found, and the second one cannot be before it.
    rcases front with - | ⟨first, - | ⟨second, front⟩⟩
    · cases split
      exact absurd writes (ten word)
    · cases split
      obtain rfl : word = 10 := Option.some.inj
        ((Text.readWord_trim_iff.mpr writes).symm.trans (Text.readWord_trim_iff.mpr digits))
      exact value
    · obtain ⟨rfl, -⟩ := List.cons.inj (List.cons.inj split).2
      exact absurd digits (others _ (by simp) 10)
  · exact (((inputInt_lines asking (called (some "full")) (queue (some "full")) rfl).2 "full" rfl).2
      _ _ rfl).2 ten

end Scriptlet
