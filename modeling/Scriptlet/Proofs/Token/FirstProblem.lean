import Scriptlet.Proofs.Token.Fault

/-!
The first problem of a text. A text that has no tokens is sliced without fault up to one place, and
the fault that is reported is the one at that place.
-/

namespace Scriptlet

namespace Source

/--
The first problem of a source: the characters before it have tokens of their own and are sliced by
the rules, so that a new slice would start where the fault is, and the report is about the fault.
-/
structure FirstProblem (source : Source) (error : SyntaxError) (before rest : List Char) :
    Prop where
  text : source.text.toList = before ++ rest
  tokenized : ∃ tokens, ({ source with text := String.ofList before } : Source).tokens = .ok tokens
  sliced : Sliced rest before
  fault : ∃ width, LexicalFault rest error.cause width ∧
    error.span = ⟨source, Position.start.advanceBy before,
      Position.start.advanceBy (before ++ rest.take width)⟩

end Source

namespace LongestMatch

variable {slice slice' behind behind' more : List Char}

/-- At one place of a text there is one longest match. -/
theorem unique (longest : LongestMatch slice behind) (longest' : LongestMatch slice' behind')
    (same : slice ++ behind = slice' ++ behind') : slice = slice' ∧ behind = behind' := by
  obtain ⟨pattern, fits⟩ := longest.matched
  obtain ⟨pattern', fits'⟩ := longest'.matched
  have short := longest.longest pattern' slice' fits' (same ▸ List.prefix_append _ _)
  have short' := longest'.longest pattern slice fits (same ▸ List.prefix_append _ _)
  exact List.append_inj same (Nat.le_antisymm short' short)

/-- The longest match stays the longest in front of less. -/
theorem shorten (longest : LongestMatch slice (behind ++ more)) : LongestMatch slice behind where
  matched := longest.matched
  longest pattern text fits starts :=
    longest.longest pattern text fits
      (starts.trans (List.append_assoc slice behind more ▸ List.prefix_append _ more))

/-- The longest match has a first character, like all that a rule matches. -/
theorem exists_cons (longest : LongestMatch slice behind) :
    ∃ first others, slice = first :: others := by
  obtain ⟨pattern, fits⟩ := longest.matched
  cases pattern with
  | float =>
    obtain ⟨c, _, _, rfl, -⟩ := mem_float.mp fits
    exact ⟨c, _, rfl⟩
  | int | identifier | comment | space =>
    obtain ⟨c, _, rfl, -⟩ := mem_run.mp fits
    exact ⟨c, _, rfl⟩
  | text =>
    obtain ⟨_, _, rfl⟩ := mem_text.mp fits
    exact ⟨_, _, rfl⟩
  | openText =>
    obtain ⟨_, _, _, _, rfl⟩ := openText_eq fits
    exact ⟨_, _, rfl⟩
  | keyword word =>
    obtain ⟨c, _, spelled, -⟩ := mem_run.mp (Lexeme.keyword_identifier word)
    exact ⟨c, _, fits.trans spelled⟩
  | symbol sign =>
    obtain rfl : slice = sign.spelling.toList := fits
    cases sign <;> exact ⟨_, _, rfl⟩
  | exclamation => exact ⟨_, _, fits⟩
  | newline => rcases fits with rfl | rfl <;> exact ⟨_, _, rfl⟩

end LongestMatch

/-- A lexeme that is no fault is the longest match of the rules. -/
theorem Lexeme.longestMatch_read (first : Char) (rest : List Char)
    (sound : ∀ cause, (read first rest).1 ≠ .fault cause) :
    LongestMatch (first :: rest.take (read first rest).2) (rest.drop (read first rest).2) := by
  refine ⟨?_, fun pattern text fits starts => ?_⟩
  · cases found : (read first rest).1 with
    | fault cause => exact absurd found (sound cause)
    | token kind =>
      obtain ⟨pattern, fits, -⟩ := read_reads found
      exact ⟨pattern, fits⟩
    | blank =>
      have taken (inside : Char → Bool) :
          rest.take (rest.takeWhile inside).length = rest.takeWhile inside :=
        (List.prefix_iff_eq_take.mp (List.takeWhile_prefix inside)).symm
      rcases starts_blank found with blank | rfl
      · rw [read_space blank, taken]
        exact ⟨.space, mem_run.mpr ⟨first, _, rfl, blank, fun _ => List.mem_takeWhile_imp⟩⟩
      · have width : (read '#' rest).2 = (rest.takeWhile (· ≠ '\n')).length := rfl
        rw [width, taken]
        refine ⟨.comment, mem_run.mpr ⟨'#', _, rfl, rfl, fun c member => ?_⟩⟩
        simpa using List.mem_takeWhile_imp member
  · rw [List.cons_append, List.take_append_drop] at starts
    rw [List.length_cons, List.length_take, Nat.min_eq_left (read_le first rest)]
    exact read_longest pattern fits starts

/-- A longest match is read as a lexeme, unless a fault is. -/
theorem Lexeme.width_of_longestMatch {first : Char} {slice behind : List Char}
    (longest : LongestMatch (first :: slice) behind)
    (sound : ∀ cause, (read first (slice ++ behind)).1 ≠ .fault cause) :
    (read first (slice ++ behind)).2 = slice.length := by
  have same := (longestMatch_read first _ sound).unique longest
    (by rw [List.cons_append, List.take_append_drop, List.cons_append])
  have width := congrArg List.length same.1
  rw [List.length_cons, List.length_take, Nat.min_eq_left (read_le first _), List.length_cons]
    at width
  exact Nat.succ.inj width

/-- What is skipped before some characters is skipped before the first of them too. -/
theorem Skipped.hasKinds {skipped front back : List Char} {kinds : List TokenKind}
    (passed : Skipped (front ++ back) skipped) (known : HasKinds front kinds) :
    HasKinds (skipped ++ front) kinds := by
  -- The induction goes along what is skipped.
  induction passed with
  | nil => exact known
  | @space c rest blank _ ih =>
    intro source place
    rw [List.cons_append, tokensFrom_space blank]
    exact ih source _
  | @comment line rest plain ends _ ih =>
    intro source place
    have closed : ∀ c ∈ (rest ++ front).head?, c = '\n' := by
      intro c head
      obtain ⟨others, same⟩ := List.head?_eq_some_iff.mp head
      refine ends c ?_
      rw [← List.append_assoc, same]
      rfl
    rw [List.cons_append, List.cons_append, List.append_assoc, tokensFrom_comment plain closed]
    exact ih source _

/-- A token before some characters is a token before the first of them too. -/
theorem Lexeme.hasKinds_token {first : Char} {slice front back : List Char} {kind : TokenKind}
    {kinds : List TokenKind}
    (reads : read first (slice ++ (front ++ back)) = (.token kind, slice.length))
    (known : HasKinds front kinds) : HasKinds (first :: slice ++ front) (kind :: kinds) := by
  have alike : EndsAlike (front ++ back) front := fun c head =>
    .inr (List.mem_head?_append_of_mem_head? head)
  intro source place
  obtain ⟨tokens, cut, same⟩ := known source (place.advanceBy (first :: slice))
  rw [List.cons_append, tokensFrom_token (read_endsAlike alike reads), cut]
  exact ⟨_, rfl, congrArg (kind :: ·) same⟩

/-- No characters have no tokens but the end of the text. -/
theorem HasKinds.nil : HasKinds [] [.endOfText] := fun source place =>
  ⟨[⟨.endOfText, source, place, place⟩], by rw [tokensFrom], rfl⟩

namespace LexicalFault

variable {slice front back chars : List Char} {kinds : List TokenKind} {cause : SyntaxError.Cause}
  {width : Nat}

/-- A fault at the front of a text is the error that the text has. -/
theorem tokensFrom_eq (fault : LexicalFault chars cause width) (source : Source)
    (place : Position) : tokensFrom source place chars =
      .error ⟨cause, source, place, place.advanceBy (chars.take width)⟩ := by
  obtain ⟨first, rest, more, rfl, rfl, found⟩ := fault.read
  rw [tokensFrom_cons, Lexeme.stop, found]
  rfl

/-- A fault that starts like a longest match is one in front of less, too. -/
theorem shorten (longest : LongestMatch slice (front ++ back))
    (fault : LexicalFault (slice ++ (front ++ back)) cause width) :
    ∃ cause width, LexicalFault (slice ++ front) cause width := by
  obtain ⟨pattern, fits⟩ := longest.matched
  obtain ⟨first, others, rfl⟩ := longest.exists_cons
  rw [← List.append_assoc, List.cons_append, List.cons_append] at fault
  rw [List.cons_append]
  generalize same : first :: (others ++ front ++ back) = chars at fault
  cases fault with
  | exclamation alone =>
    obtain ⟨rfl, rfl⟩ := List.cons.inj same
    exact ⟨_, _, .exclamation fun head => alone (List.mem_head?_append_of_mem_head? head)⟩
  | unclosed runs =>
    obtain ⟨rfl, rfl⟩ := List.cons.inj same
    refine ⟨_, _, .unclosed fun body inside starts => runs body inside ?_⟩
    exact starts.trans (List.prefix_append _ back)
  | @tooLarge digits rest some each stops large =>
    -- The digits match a rule, so they are all in the slice.
    have whole : digits ++ rest = first :: others ++ (front ++ back) := by
      rw [← same, List.cons_append, List.append_assoc]
    have number : digits ∈ Pattern.int.language := by
      obtain ⟨digit, more, rfl⟩ := List.exists_cons_of_ne_nil some
      rw [List.forall_mem_cons] at each
      exact mem_run.mpr ⟨digit, more, rfl, each.1, each.2⟩
    obtain ⟨tail, split⟩ := List.prefix_of_prefix_length_le ⟨rest, whole⟩
      (List.prefix_append _ (front ++ back)) (longest.longest .int _ number ⟨rest, whole⟩)
    rw [← split, List.append_assoc, List.append_cancel_left_eq] at whole
    subst whole
    rw [← List.cons_append, ← split, List.append_assoc]
    refine ⟨_, _, .tooLarge some each (fun c head => stops c ?_) large⟩
    rw [← List.append_assoc]
    exact List.mem_head?_append_of_mem_head? head
  | illegal apart =>
    obtain ⟨rfl, -⟩ := List.cons.inj same
    exact absurd rfl (apart pattern _ fits)

/-- What starts with a fault has no tokens. -/
theorem not_hasKinds (fault : LexicalFault chars cause width) : ¬ HasKinds chars kinds := by
  intro known
  obtain ⟨tokens, cut, -⟩ := known ⟨"", ""⟩ .start
  rw [fault.tokensFrom_eq] at cut
  cases cut

end LexicalFault

/-- Behind a longest match in front of a text that has tokens is one that has tokens, too. -/
theorem HasKinds.of_longestMatch {slice front : List Char} {kinds : List TokenKind}
    (longest : LongestMatch slice front) (known : HasKinds (slice ++ front) kinds) :
    ∃ kinds, HasKinds front kinds := by
  obtain ⟨first, slice, rfl⟩ := longest.exists_cons
  obtain ⟨tokens, cut, -⟩ := known ⟨"", ""⟩ .start
  rw [List.cons_append] at cut
  obtain ⟨others, rest, lexeme⟩ := tokensFrom_cons_eq_ok cut
  have sound (cause : SyntaxError.Cause) :
      (Lexeme.read first (slice ++ front)).1 ≠ .fault cause := by
    rcases lexeme with ⟨found, -⟩ | ⟨kind, found, -⟩ <;> simp [found]
  rw [Lexeme.width_of_longestMatch longest sound, List.drop_left] at rest
  exact ⟨_, hasKinds_of_tokensFrom rest⟩

/-- A text that is sliced up to a fault, and that has tokens up to there, has the fault as error. -/
theorem Sliced.tokensFrom_eq {before rest : List Char} {cause : SyntaxError.Cause} {width : Nat}
    (sliced : Sliced rest before) (fault : LexicalFault rest cause width) (source : Source) :
    ∀ {place : Position} {kinds : List TokenKind}, HasKinds before kinds →
      tokensFrom source place (before ++ rest) = .error ⟨cause, source, place.advanceBy before,
        place.advanceBy (before ++ rest.take width)⟩ := by
  -- The induction goes along the slices.
  induction sliced with
  | nil =>
    intro place kinds _
    exact fault.tokensFrom_eq source place
  | @cons slice chars longest _ ih =>
    intro place kinds known
    obtain ⟨kinds, later⟩ := known.of_longestMatch longest.shorten
    obtain ⟨first, slice, rfl⟩ := longest.exists_cons
    have sound (cause : SyntaxError.Cause) :
        (Lexeme.read first (slice ++ (chars ++ rest))).1 ≠ .fault cause := by
      intro found
      obtain ⟨_, _, fault⟩ := (Lexeme.fault_of_read (Prod.ext found rfl)).shorten longest
      exact fault.not_hasKinds known
    have width := Lexeme.width_of_longestMatch longest sound
    have stop : Lexeme.stop place first (slice ++ (chars ++ rest)) =
        place.advanceBy (first :: slice) := by
      rw [Lexeme.stop, width, List.take_left, Position.advanceBy_cons]
    have behind := @ih (place.advanceBy (first :: slice)) kinds later
    rw [← Position.advanceBy_append, ← Position.advanceBy_append, ← List.append_assoc] at behind
    rw [List.cons_append, List.cons_append, List.append_assoc, tokensFrom_cons, stop, width,
      List.drop_left, behind]
    cases found : (Lexeme.read first (slice ++ (chars ++ rest))).1 with
    | fault cause => exact absurd found (sound cause)
    | token kind => rfl
    | blank => rfl

/-- The first fault behind a place, with the characters before it and those from it on. -/
structure FaultBehind (source : Source) (place : Position) (error : SyntaxError)
    (before rest : List Char) : Prop where
  tokenized : ∃ kinds, HasKinds before kinds
  sliced : Sliced rest before
  fault : ∃ width, LexicalFault rest error.cause width ∧
    error.span = ⟨source, place.advanceBy before, place.advanceBy (before ++ rest.take width)⟩

namespace FaultBehind

variable {source : Source} {place : Position} {error : SyntaxError} {slice before rest : List Char}

/-- A slice in front of the characters before a fault. -/
theorem cons (longest : LongestMatch slice (before ++ rest))
    (tokenized : ∃ kinds, HasKinds (slice ++ before) kinds)
    (later : FaultBehind source (place.advanceBy slice) error before rest) :
    FaultBehind source place error (slice ++ before) rest := by
  obtain ⟨-, sliced, width, fault, range⟩ := later
  refine ⟨tokenized, .cons longest sliced, width, fault, ?_⟩
  rw [range, ← Position.advanceBy_append, ← Position.advanceBy_append, List.append_assoc]

/-- A text that has no tokens is sliced up to its first fault. -/
theorem of_tokensFrom (chars : List Char) : ∀ {place : Position},
    tokensFrom source place chars = .error error →
      ∃ before rest, chars = before ++ rest ∧ FaultBehind source place error before rest := by
  -- The induction goes along the lexemes.
  induction chars using Lexeme.induction with
  | empty =>
    intro place cut
    rw [tokensFrom] at cut
    cases cut
  | lexeme first chars ih =>
    intro place cut
    rw [tokensFrom_cons] at cut
    have whole : first :: chars = first :: chars.take (Lexeme.read first chars).2 ++
        chars.drop (Lexeme.read first chars).2 := by
      rw [List.cons_append, List.take_append_drop]
    cases found : (Lexeme.read first chars).1 with
    | fault cause =>
      rw [found] at cut
      cases cut
      have fault := Lexeme.fault_of_read (Prod.ext found rfl)
      exact ⟨[], first :: chars, rfl, ⟨_, .nil⟩, .nil, _, fault, rfl⟩
    | blank =>
      rw [found] at cut
      obtain ⟨before, rest, split, later⟩ := ih cut
      have longest := Lexeme.longestMatch_read first chars (by simp [found])
      have passed := Lexeme.skipped_read found (List.nil_append _).symm .nil
      rw [split] at whole longest passed
      rw [List.append_nil] at passed
      obtain ⟨kinds, known⟩ := later.tokenized
      refine ⟨_, rest, whole.trans (List.append_assoc _ _ _).symm, ?_⟩
      exact cons longest ⟨kinds, passed.hasKinds known⟩ later
    | token kind =>
      rw [found] at cut
      cases rear : tokensFrom source (Lexeme.stop place first chars)
          (chars.drop (Lexeme.read first chars).2) with
      | ok tokens =>
        simp only [rear] at cut
        cases cut
      | error error =>
        simp only [rear] at cut
        cases cut
        obtain ⟨before, rest, split, later⟩ := ih rear
        have longest := Lexeme.longestMatch_read first chars (by simp [found])
        rw [split] at whole longest
        obtain ⟨kinds, known⟩ := later.tokenized
        refine ⟨_, rest, whole.trans (List.append_assoc _ _ _).symm, ?_⟩
        have reads : Lexeme.read first
            (chars.take (Lexeme.read first chars).2 ++ (before ++ rest)) =
              (.token kind, (chars.take (Lexeme.read first chars).2).length) := by
          rw [← split, List.take_append_drop, List.length_take,
            Nat.min_eq_left (Lexeme.read_le first chars)]
          exact Prod.ext found rfl
        exact cons longest ⟨_, Lexeme.hasKinds_token reads known⟩ later

end FaultBehind

namespace Source

/-- A problem behind characters that are sliced and have tokens is the error of the source. -/
theorem FirstProblem.tokens_eq {source : Source} {error : SyntaxError} {before rest : List Char}
    (problem : source.FirstProblem error before rest) : source.tokens = .error error := by
  obtain ⟨text, ⟨tokens, cut⟩, sliced, width, fault, range⟩ := problem
  rw [Source.tokens, String.toList_ofList] at cut
  rw [Source.tokens, text, sliced.tokensFrom_eq fault source (hasKinds_of_tokensFrom cut), ← range]

/-- The error of a source is its first problem. -/
theorem firstProblem_of_tokens {source : Source} {error : SyntaxError}
    (cut : source.tokens = .error error) : ∃ before rest,
      before.length = error.span.start.index ∧ source.FirstProblem error before rest := by
  obtain ⟨before, rest, text, ⟨kinds, known⟩, sliced, width, fault, range⟩ :=
    FaultBehind.of_tokensFrom source.text.toList cut
  refine ⟨before, rest, ?_, text, ?_, sliced, width, fault, range⟩
  · rw [range, index_start]
  · obtain ⟨tokens, cut, -⟩ := known { source with text := String.ofList before } .start
    refine ⟨tokens, ?_⟩
    rw [Source.tokens, String.toList_ofList, cut]

/--
A source has an error if and only if that is its first problem, which starts behind the characters
that have tokens of their own; and a source has tokens if and only if it has no such problem.
-/
theorem tokens_firstProblem (source : Source) :
    (∀ error, source.tokens = .error error ↔ ∃ before rest,
      before.length = error.span.start.index ∧ source.FirstProblem error before rest) ∧
    ((∃ tokens, source.tokens = .ok tokens) ↔
      ¬ ∃ error before rest, source.FirstProblem error before rest) := by
  refine ⟨fun error => ⟨firstProblem_of_tokens, ?_⟩, ?_, ?_⟩
  · rintro ⟨before, rest, -, problem⟩
    exact problem.tokens_eq
  · rintro ⟨tokens, cut⟩ ⟨error, before, rest, problem⟩
    rw [problem.tokens_eq] at cut
    cases cut
  · intro sound
    cases cut : source.tokens with
    | ok tokens => exact ⟨tokens, rfl⟩
    | error error =>
      obtain ⟨before, rest, -, problem⟩ := firstProblem_of_tokens cut
      exact absurd ⟨error, before, rest, problem⟩ sound

/-- Marks in a literal and in a comment, zeros in front of an integer, and then one too large. -/
def overfull : Source :=
  { name := "overfull", text := "\"!\\\"\" # !\"\n00 == 0099999999999999999999;!" }

/-- The integer is reported, and neither the marks before it nor the one behind it. -/
theorem tokens_firstProblem_overfull :
    ∃ error before rest, error.cause = .integerTooLarge "0099999999999999999999" ∧
      error.span = ⟨overfull, ⟨17, 1, 6⟩, ⟨39, 1, 28⟩⟩ ∧
      before = "\"!\\\"\" # !\"\n00 == ".toList ∧
      overfull.FirstProblem error before rest := by
  have failure : overfull.tokens.map (fun _ => ()) = .error
      ⟨.integerTooLarge "0099999999999999999999", overfull, ⟨17, 1, 6⟩, ⟨39, 1, 28⟩⟩ := by
    decide +kernel
  cases cut : overfull.tokens with
  | ok tokens =>
    rw [cut] at failure
    cases failure
  | error error =>
    rw [cut] at failure
    cases failure
    obtain ⟨before, rest, start, problem⟩ := ((tokens_firstProblem overfull).1 _).mp cut
    refine ⟨_, before, rest, rfl, rfl, ?_, problem⟩
    have front : before = overfull.text.toList.take before.length := by
      rw [problem.text, List.take_left]
    rw [front, start]
    decide +kernel

end Source

end Scriptlet
