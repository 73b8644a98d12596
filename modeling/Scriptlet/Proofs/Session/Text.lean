import Scriptlet.Proofs.Token.Joint
import Scriptlet.Proofs.Syntax.Sequel

/-! Programs whose texts are joined by a newline: the statements of both, one after the other. -/

namespace Scriptlet

/-- The place where a text would go on on the next line. -/
def Source.nextLine (source : Source) : Position :=
  (Position.start.advanceBy source.text.toList).advance '\n'

/--
A range of a joined text and what it was before: a range of the first text, at the same places, or
one of the second, whose places have moved. Ranges of other texts stay what they are.
-/
inductive Span.Rejoined (whole first second : Source) : Span → Span → Prop where
  | same (span : Span) : Span.Rejoined whole first second span span
  | front {span span' : Span} (range : Span.Corresponds whole first (· = ·) span span') :
    Span.Rejoined whole first second span span'
  | rear {span span' : Span}
    (range : Span.Corresponds whole second first.nextLine.Behind span span') :
    Span.Rejoined whole first second span span'

/-- The next line starts where a text of its own would start. -/
theorem Source.nextLine_behind (source : Source) : source.nextLine.Behind source.nextLine .start where
  index := rfl
  line := rfl
  column := rfl

/-- A source with a program has tokens that are one. -/
theorem Source.program_eq_ok {source : Source} {program : Node} :
    source.program = .ok program ↔ ∃ tokens, source.tokens = .ok tokens ∧
      parse tokens = .ok program := by
  -- Without tokens there is no program.
  unfold Source.program
  cases source.tokens with
  | error error => simp [Except.bind]
  | ok tokens => simp [Except.bind]

/-- The program of a source is a row of statements, and there is a last one. -/
theorem Source.statements_of_program {source : Source} {program : Node}
    (parsed : source.program = .ok program) :
    ∃ span front last, program = .sequence span (front ++ [last]) := by
  obtain ⟨tokens, _, parses⟩ := Source.program_eq_ok.mp parsed
  obtain ⟨_, _, read, _⟩ := parse_eq_ok.mp parses
  -- A newline in front of the tokens makes the first statement one of those behind newlines.
  let line : Token := { kind := .newline, span := default }
  have newline : line.kind = .newline := rfl
  obtain ⟨first, more, _, rfl⟩ := (Grammar.statements_eq_ok newline).mp read
  have split : first :: more =
      (first :: more).dropLast ++ [(first :: more).getLast (List.cons_ne_nil first more)] :=
    (List.dropLast_append_getLast _).symm
  exact ⟨_, _, _, congrArg (Node.sequence _) split⟩

/-- Programs in joined texts are one program, with the statements of both. -/
theorem Source.program_joined {whole first second : Source}
    (joined : whole.text = first.text ++ "\n" ++ second.text) {before after : Node}
    (firstProgram : first.program = .ok before) (secondProgram : second.program = .ok after) :
    ∃ span span' joint statements statements' front rear,
      before = .sequence span statements ∧ after = .sequence span' statements' ∧
        whole.program = .ok (.sequence joint (front ++ rear)) ∧
        List.Forall₂ (Node.Similar (Span.Rejoined whole first second)) front statements ∧
        List.Forall₂ (Node.Similar (Span.Rejoined whole first second)) rear statements' := by
  obtain ⟨tokens, cut, parsed⟩ := Source.program_eq_ok.mp firstProgram
  obtain ⟨tokens', cut', parsed'⟩ := Source.program_eq_ok.mp secondProgram
  -- The tokens of the joined text are those of both.
  obtain ⟨others, others_cut, others_alike⟩ := tokensFrom_alike
    (Position.steady_behind first.nextLine) _ cut' whole _ first.nextLine_behind
  obtain ⟨body, line, ended, whole_cut, newline, noEnd, body_alike⟩ :=
    tokensFrom_joined whole _ cut others_cut
  have whole_tokens : whole.tokens = .ok (body ++ line :: others) := by
    rw [← whole_cut, Source.tokens, joined]
    simp
  -- Each half of them is a program, alike to the one it was before.
  obtain ⟨program, body_parsed, programs⟩ :=
    parse_alike (Span.corresponds_respectsThrough whole first _) body_alike parsed
  obtain ⟨program', others_parsed, programs'⟩ :=
    parse_alike (Span.corresponds_respectsThrough whole second _) others_alike parsed'
  obtain ⟨_, _, joint, front, rear, rfl, rfl, whole_parsed⟩ :=
    parse_joined newline noEnd body_parsed others_parsed
  cases programs with
  | sequence ranges fronts =>
    cases programs' with
    | sequence ranges' rears =>
      refine ⟨_, _, joint, _, _, front, rear, rfl, rfl,
        Source.program_eq_ok.mpr ⟨_, whole_tokens, whole_parsed⟩, ?_, ?_⟩
      · exact Node.Similar.mono_list (fun _ _ => Span.Rejoined.front) _ _ fronts
      · exact Node.Similar.mono_list (fun _ _ => Span.Rejoined.rear) _ _ rears

end Scriptlet
