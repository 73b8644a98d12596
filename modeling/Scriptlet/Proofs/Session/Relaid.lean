import Scriptlet.Proofs.Syntax.Rereading
import Scriptlet.Proofs.Syntax.Squeezing
import Scriptlet.Proofs.Token.Layout

/-!
Layout does not matter. A text whose layout is edited is cut into the same tokens, but for newlines
that are doubled, and it is read alike: as the same program up to ranges, or with the same message.
-/

namespace Scriptlet

section Squeezed

variable {spans : Span → Span → Prop} {tokens tokens' : List Token}

/-- Alike tokens are alike when newlines in a row are squeezed. -/
theorem squeeze_alike (alike : TokensAlike spans tokens tokens') :
    TokensAlike spans (squeeze tokens) (squeeze tokens') := by
  induction alike with
  | nil => exact .nil
  | @cons token token' rest rest' same others ih =>
    have next : nextKind rest = nextKind rest' := by
      cases others with
      | nil => rfl
      | cons same _ => exact same.1
    rw [squeeze, squeeze, same.1, next]
    split
    · exact ih
    · exact .cons same ih

/-- A newline that is there twice in a row is squeezed as if it was there once. -/
theorem squeeze_double {token : Token} (newline : token.kind = .newline) (front rest : List Token) :
    squeeze (front ++ token :: token :: rest) = squeeze (front ++ token :: rest) := by
  -- The induction goes along the tokens before the newline.
  induction front with
  | nil => exact if_pos ⟨newline, newline⟩
  | cons first front ih =>
    have next : nextKind (front ++ token :: token :: rest) = nextKind (front ++ token :: rest) := by
      cases front <;> rfl
    rw [List.cons_append, List.cons_append, squeeze, squeeze, ih, next]

/-- However often newlines are doubled, the tokens are alike when they are squeezed. -/
theorem Doubled.squeezed_alike {count : Nat} {kinds kinds' : List TokenKind}
    (doubled : Doubled count kinds kinds') (same : tokens.map Token.kind = kinds)
    (same' : tokens'.map Token.kind = kinds') :
    TokensAlike (fun _ _ => True) (squeeze tokens) (squeeze tokens') := by
  induction doubled generalizing tokens with
  | refl kinds =>
    rw [← same', ← List.forall₂_eq_eq_eq, List.forall₂_map_left_iff,
      List.forall₂_map_right_iff] at same
    exact squeeze_alike (same.imp fun _ _ same => ⟨same, trivial⟩)
  | step _ ih =>
    obtain ⟨front, others, rfl, frontSame, rest⟩ := List.map_eq_append_iff.mp same
    obtain ⟨token, rest, rfl, newline, restSame⟩ := List.map_eq_cons_iff.mp rest
    rw [← squeeze_double newline]
    exact ih (by simp [frontSame, newline, restSame]) same'

end Squeezed

/-- Two readings of a text: programs that differ in ranges only, or errors with one message. -/
inductive ReadAlike : Except SyntaxError Node → Except SyntaxError Node → Prop where
  | program {program program' : Node} (alike : program.Alike program') :
    ReadAlike (.ok program) (.ok program')
  | error {error error' : SyntaxError} (same : error.message = error'.message) :
    ReadAlike (.error error) (.error error')

/-- Programs of alike tokens are alike. -/
theorem parseProgram_alike {spans : Span → Span → Prop} (through : Span.RespectsThrough spans)
    {tokens tokens' : List Token} (alike : TokensAlike spans tokens tokens') :
    Parsed.Similar spans (Node.Similar spans) tokens.length (parseProgram tokens)
      (parseProgram tokens') := by
  rw [parseProgram_eq, parseProgram_eq]
  refine Rule.Similar.bind (Grammar.full_similar through tokens.length).statements
    (fun program program' same => ?_) tokens tokens' alike (Nat.le_refl _)
  exact Rule.Similar.token.map_pure fun _ _ _ => same

/-- Tokens that are alike when newlines in a row are squeezed are read alike. -/
theorem parse_readAlike {tokens tokens' : List Token}
    (alike : TokensAlike (fun _ _ => True) (squeeze tokens) (squeeze tokens')) :
    ReadAlike (parse tokens) (parse tokens') := by
  have first := parseProgram_squeezed tokens
  have second := parseProgram_squeezed tokens'
  have between := parseProgram_alike (fun _ _ _ _ _ _ => trivial) alike
  unfold parse
  generalize parseProgram tokens = parsed, parseProgram (squeeze tokens) = squeezed,
    parseProgram tokens' = parsed', parseProgram (squeeze tokens') = squeezed' at *
  cases first with
  | ok _ =>
    cases between with
    | ok same _ _ =>
      cases second with
      | ok _ => exact .program same
  | error _ =>
    cases between with
    | error _ =>
      cases second with
      | error _ => exact .error rfl

/--
Layout does not matter. Whenever a source has tokens and its layout is edited, however often, the
edited source has the same tokens, but for newlines that the edits double. And both of them are read
alike.
-/
theorem Source.Relaid.readAlike {source edited : Source} {count : Nat} {tokens : List Token}
    (relaid : source.Relaid count edited) (cut : source.tokens = .ok tokens) :
    ∃ tokens', edited.tokens = .ok tokens' ∧
      Doubled count (tokens.map Token.kind) (tokens'.map Token.kind) ∧
      ReadAlike source.program edited.program := by
  obtain ⟨tokens', cut', doubled⟩ := relaid.doubled cut
  refine ⟨tokens', cut', doubled, ?_⟩
  rw [Source.program, Source.program, cut, cut']
  exact parse_readAlike (doubled.squeezed_alike rfl rfl)

/-- The tokens of a source, if it has any for which a condition holds. -/
theorem exists_tokens_of (source : Source) (condition : List Token → Prop)
    [DecidablePred condition]
    (check : source.tokens.toOption.any (fun tokens => decide (condition tokens)) = true) :
    ∃ tokens, source.tokens = .ok tokens ∧ condition tokens := by
  cases cut : source.tokens with
  | error error => simp [cut, Except.toOption] at check
  | ok tokens =>
    rw [cut] at check
    exact ⟨tokens, rfl, of_decide_eq_true check⟩

/-- An edit of a text is one of the same text, with the same outcome. -/
theorem Edit.of_eq {text text' edited edited' : List Char} {tokens : List Token} {count : Nat}
    (edit : Edit text tokens count edited) (same : text = text') (same' : edited = edited') :
    Edit text' tokens count edited' :=
  same ▸ same' ▸ edit

/-- A program with as little between its tokens as there can be. -/
def crammed : Source := { name := "crammed", text := "IF 1 THEN;PRINT(\"#;\")\nEND" }

/-- The same program with blanks inside of a call, a comment, and a line between two others. -/
def spacious : Source :=
  { name := "spacious", text := "IF 1 THEN\n\nPRINT\t (\"#;\")# a;b\nEND" }

/-- Both are read alike, as four edits lead from the one to the other. -/
theorem Source.Relaid.readAlike_spacious :
    crammed.Relaid 1 spacious ∧ ∃ tokens tokens', crammed.tokens = .ok tokens ∧
      spacious.tokens = .ok tokens' ∧
      Doubled 1 (tokens.map Token.kind) (tokens'.map Token.kind) ∧
      ReadAlike crammed.program spacious.program := by
  let called : Source := ⟨"called", "IF 1 THEN;PRINT\t (\"#;\")\nEND"⟩
  let noted : Source := ⟨"noted", "IF 1 THEN;PRINT\t (\"#;\")# a;b\nEND"⟩
  let split : Source := ⟨"split", "IF 1 THEN\nPRINT\t (\"#;\")# a;b\nEND"⟩
  -- Each edit is made where the tokens of the text before it allow it.
  obtain ⟨tokens, cut, outside⟩ := exists_tokens_of crammed (Outside · 15) (by decide +kernel)
  obtain ⟨_, calledCut, ended⟩ := exists_tokens_of called (NewlineAt · 23) (by decide +kernel)
  obtain ⟨_, notedCut, separated⟩ := exists_tokens_of noted (NewlineAt · 9) (by decide +kernel)
  obtain ⟨_, splitCut, doubled⟩ := exists_tokens_of split (NewlineAt · 9) (by decide +kernel)
  have blanks : Edit crammed.text.toList tokens 0 called.text.toList :=
    .of_eq (@Edit.blanks _ _ "IF 1 THEN;PRINT".toList ['\t', ' '] "(\"#;\")\nEND".toList
      rfl outside (List.all_eq_true.mp (by decide))) (by decide) (by decide)
  have width : "IF 1 THEN;PRINT\t (\"#;\")".toList.length = 23 := by decide
  have comment : Edit called.text.toList _ 0 noted.text.toList :=
    .of_eq (@Edit.comment _ _ "IF 1 THEN;PRINT\t (\"#;\")".toList " a;b".toList "\nEND".toList
      rfl (by decide) (.inr ⟨by decide, width ▸ ended⟩)) (by decide) (by decide)
  have separator : Edit noted.text.toList _ 0 split.text.toList :=
    .of_eq (@Edit.separator _ _ "IF 1 THEN".toList "PRINT\t (\"#;\")# a;b\nEND".toList
      rfl separated) (by decide) (by decide)
  have double : Edit split.text.toList _ 1 spacious.text.toList :=
    .of_eq (@Edit.double _ _ "IF 1 THEN".toList "PRINT\t (\"#;\")# a;b\nEND".toList '\n'
      rfl doubled) (by decide) (by decide)
  have relaid : crammed.Relaid 1 spacious :=
    .edit cut blanks (.edit calledCut comment (.edit notedCut separator
      (.edit splitCut double (.refl spacious))))
  obtain ⟨tokens', cut', kinds, alike⟩ := relaid.readAlike cut
  exact ⟨relaid, tokens, tokens', cut, cut', kinds, alike⟩

end Scriptlet
