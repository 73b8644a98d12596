import Scriptlet.Syntax.Rule

/-!
What a rule reads, whatever comes behind it. A rule looks at one token more than it reads, so what it
reads is told together with the kinds of tokens that may come next.
-/

namespace Scriptlet

/-- The kind of the token that comes next; behind the last one the text has ended. -/
def nextKind : List Token → TokenKind
  | [] => .endOfText
  | token :: _ => token.kind

@[simp] theorem nextKind_nil : nextKind [] = .endOfText := rfl

@[simp] theorem nextKind_cons (token : Token) (rest : List Token) :
    nextKind (token :: rest) = token.kind := rfl

/-- The next token does not depend on what stands behind it. -/
theorem nextKind_append {read : List Token} (some : read ≠ []) (rest other : List Token) :
    nextKind (read ++ rest) = nextKind (read ++ other) := by
  -- The next token is the first one that is read.
  cases read with
  | nil => exact absurd rfl some
  | cons token read => rfl

/-- Texts that go on with tokens of one kind do so behind all that is read before them, too. -/
theorem nextKind_append_congr {rest other : List Token} (same : nextKind rest = nextKind other)
    (read : List Token) : nextKind (read ++ rest) = nextKind (read ++ other) := by
  cases read with
  | nil => exact same
  | cons token read => rfl

namespace Rule

variable {α β : Type}

/-- Two rules in a row have a result when the second one has it on what the first one left. -/
theorem bind_eq_ok {rule : Rule α} {follow : α → Rule β} {tokens rest : List Token}
    {outcome : β} :
    (rule >>= follow) tokens = .ok (outcome, rest) ↔
      ∃ result left, rule tokens = .ok (result, left) ∧
        follow result left = .ok (outcome, rest) := by
  rw [bind_apply]
  cases rule tokens with
  | error failure => simp
  | ok parsed =>
    obtain ⟨result, left⟩ := parsed
    constructor
    · intro second
      exact ⟨result, left, rfl, second⟩
    · rintro ⟨_, _, same, second⟩
      cases same
      exact second

/-- Two rules in a row fail when one of them does. -/
theorem bind_eq_error {rule : Rule α} {follow : α → Rule β} {tokens : List Token}
    {failure : Failure} :
    (rule >>= follow) tokens = .error failure ↔
      rule tokens = .error failure ∨ ∃ result left, rule tokens = .ok (result, left) ∧
        follow result left = .error failure := by
  rw [bind_apply]
  cases rule tokens with
  | error first => simp
  | ok parsed =>
    obtain ⟨result, left⟩ := parsed
    constructor
    · intro second
      exact .inr ⟨result, left, rfl, second⟩
    · rintro (first | ⟨_, _, same, second⟩)
      · cases first
      · cases same
        exact second

/-- A rule reads exactly these tokens to this result, as long as what comes next is suitable. -/
def Reads (rule : Rule α) (read : List Token) (result : α) (next : TokenKind → Prop) : Prop :=
  ∀ rest, next (nextKind rest) → rule (read ++ rest) = .ok (result, rest)

/-- A rule fails behind exactly these tokens, as long as what comes next is suitable. -/
def Fails (rule : Rule α) (read : List Token) (expected : Expectation) (next : TokenKind → Prop) :
    Prop :=
  ∀ rest, next (nextKind rest) → rule (read ++ rest) = .error { expected, rest }

/-- A rule takes a token from the list whenever it has a result other than nothing. -/
def Consumes (item : Rule (Option α)) : Prop :=
  ∀ tokens result rest, item tokens = .ok (some result, rest) → rest.length < tokens.length

variable {rule : Rule α} {read read' : List Token} {result : α} {expected : Expectation}
  {next next' : TokenKind → Prop}

/-- What a rule reads before more tokens it reads before fewer. -/
theorem Reads.mono (reads : rule.Reads read result next) (fewer : ∀ kind, next' kind → next kind) :
    rule.Reads read result next' :=
  fun rest suitable => reads rest (fewer _ suitable)

/-- Where a rule fails before more tokens it fails before fewer. -/
theorem Fails.mono (fails : rule.Fails read expected next) (fewer : ∀ kind, next' kind → next kind) :
    rule.Fails read expected next' :=
  fun rest suitable => fails rest (fewer _ suitable)

/-- The rule that reads nothing reads nothing. -/
theorem Reads.pure (result : α) : (Pure.pure result : Rule α).Reads [] result next :=
  fun _ _ => rfl

/-- Two rules in a row read what each of them reads. -/
theorem Reads.bind {follow : α → Rule β} {outcome : β} (first : rule.Reads read result next)
    (second : (follow result).Reads read' outcome next')
    (meets : ∀ rest, next' (nextKind rest) → next (nextKind (read' ++ rest))) :
    (rule >>= follow).Reads (read ++ read') outcome next' := by
  -- The first rule stops before what the second one reads.
  intro rest suitable
  rw [bind_apply, List.append_assoc, first _ (meets rest suitable)]
  exact second rest suitable

/-- If the second of two rules reads nothing, both of them read what the first one does. -/
theorem Reads.bind_nil {follow : α → Rule β} {outcome : β} (first : rule.Reads read result next)
    (second : (follow result).Reads [] outcome next) :
    (rule >>= follow).Reads read outcome next := by
  have both := first.bind second fun _ suitable => suitable
  rwa [List.append_nil] at both

/-- A rule and a change of its result read what the rule reads. -/
theorem Reads.map {told : α → β} (reads : rule.Reads read result next) :
    (do return told (← rule) : Rule β).Reads read (told result) next :=
  reads.bind_nil (Reads.pure _)

/-- Two rules in a row fail where the first one does. -/
theorem Fails.bind {follow : α → Rule β} (first : rule.Fails read expected next) :
    (rule >>= follow).Fails read expected next := by
  -- The second rule is not reached.
  intro rest suitable
  rw [bind_apply, first rest suitable]

/-- Two rules in a row fail where the second one does behind what the first one reads. -/
theorem Reads.bind_fails {follow : α → Rule β} (first : rule.Reads read result next)
    (second : (follow result).Fails read' expected next')
    (meets : ∀ rest, next' (nextKind rest) → next (nextKind (read' ++ rest))) :
    (rule >>= follow).Fails (read ++ read') expected next' := by
  -- The first rule stops before what the second one reads.
  intro rest suitable
  rw [bind_apply, List.append_assoc, first _ (meets rest suitable)]
  exact second rest suitable

/-- A token of the right kind is read, whatever comes next. -/
theorem Reads.token (found : Token) (expected : Expectation) :
    (Rule.token found.kind expected).Reads [found] found next :=
  fun _ _ => if_pos rfl

/-- An identifier is read, whatever comes next. -/
theorem Reads.identifier (name : String) (span : Span) (expected : Expectation) :
    (Rule.identifier expected).Reads [⟨.identifier name, span⟩] (name, span) next :=
  fun _ _ => rfl

/-- A token that may be there is read, whatever comes next. -/
theorem Reads.token? (found : Token) : (Rule.token? found.kind).Reads [found] (some found) next :=
  fun _ _ => if_pos rfl

/-- A token that may be there is not read when another one comes next. -/
theorem Reads.noToken {kind : TokenKind} (other : ∀ found, next found → found ≠ kind) :
    (Rule.token? kind).Reads [] none next := by
  -- Only the kind of the next token matters.
  intro rest suitable
  cases rest with
  | nil => rfl
  | cons token rest => exact if_neg (other _ suitable)

/-- Without a newline, none is skipped. -/
theorem afterNewlines_eq {tokens : List Token} (other : nextKind tokens ≠ .newline) :
    afterNewlines tokens = tokens := by
  cases tokens with
  | nil => rfl
  | cons token rest => exact if_neg other

/-- Tokens are newlines and what comes after them. -/
theorem exists_newlines (tokens : List Token) :
    ∃ lines, tokens = lines ++ afterNewlines tokens ∧
      ∀ token ∈ lines, token.kind = .newline := by
  -- The induction goes along the newlines.
  induction tokens with
  | nil => exact ⟨[], rfl, by simp⟩
  | cons token rest ih =>
    simp only [afterNewlines]
    split
    · rename_i kind
      obtain ⟨lines, same, all⟩ := ih
      exact ⟨token :: lines, congrArg (token :: ·) same, List.forall_mem_cons.mpr ⟨kind, all⟩⟩
    · exact ⟨[], rfl, by simp⟩

/-- Newlines are followed by something else. -/
theorem nextKind_afterNewlines (tokens : List Token) :
    nextKind (afterNewlines tokens) ≠ .newline := by
  induction tokens with
  | nil => nofun
  | cons token rest ih =>
    simp only [afterNewlines]
    split
    · exact ih
    · assumption

/-- Newlines in front of tokens are skipped. -/
theorem afterNewlines_append {lines : List Token} (all : ∀ token ∈ lines, token.kind = .newline)
    (tokens : List Token) :
    afterNewlines (lines ++ tokens) = afterNewlines tokens := by
  induction lines with
  | nil => rfl
  | cons token lines ih =>
    rw [List.forall_mem_cons] at all
    rw [List.cons_append, afterNewlines, if_pos all.1]
    exact ih all.2

/-- Without a newline, none is read. -/
theorem Reads.noNewlines : newlines.Reads [] false (· ≠ .newline) := by
  intro rest other
  simp [newlines, afterNewlines_eq other]

/-- A newline is read when no other one follows. -/
theorem Reads.newline (span : Span) : newlines.Reads [⟨.newline, span⟩] true (· ≠ .newline) := by
  intro rest other
  simp [newlines, afterNewlines, afterNewlines_eq other]

/-- A rule described by what could start it reads the same. -/
theorem Reads.orExpected (reads : rule.Reads read result next) :
    (rule.orExpected expected).Reads read result next := by
  intro rest suitable
  simp only [Rule.orExpected, reads rest suitable]

/-- A rule that may be absent reads the same when it is there. -/
theorem Reads.optional (reads : rule.Reads read result next) :
    rule.optional.Reads read (some result) next := by
  intro rest suitable
  simp only [Rule.optional, reads rest suitable]

/-- A rule that may be absent has a result when it is there. -/
theorem optional_eq_some {tokens rest : List Token} :
    rule.optional tokens = .ok (some result, rest) ↔ rule tokens = .ok (result, rest) := by
  unfold Rule.optional
  cases rule tokens with
  | error failure =>
    simp only [reduceCtorEq, iff_false]
    split <;> nofun
  | ok parsed =>
    obtain ⟨found, left⟩ := parsed
    simp

/-- A rule that may be absent reads nothing when it is not there. -/
theorem eq_of_optional_eq_none {tokens rest : List Token}
    (absent : rule.optional tokens = .ok (none, rest)) : tokens = rest := by
  unfold Rule.optional at absent
  cases parsed : rule tokens with
  | ok found =>
    simp only [parsed] at absent
    cases absent
  | error failure =>
    simp only [parsed] at absent
    split at absent <;> cases absent
    rfl

/-- A rule that may be absent reads nothing when it fails at once. -/
theorem Fails.optional (fails : rule.Fails [] expected next) :
    rule.optional.Reads [] none next := by
  -- Nothing was consumed by the failure.
  intro rest suitable
  have failure := fails rest suitable
  rw [List.nil_append] at failure ⊢
  simp only [Rule.optional, failure, Nat.lt_irrefl, if_false]

/-- What is left behind some tokens is less than all of them. -/
theorem length_lt_append (some : read ≠ []) (rest : List Token) :
    rest.length < (read ++ rest).length := by
  have := List.length_pos_iff.mpr some
  simp only [List.length_append]
  omega

/-- A rule that fails behind its first token fails the same when it is described otherwise. -/
theorem Fails.orExpected {described : Expectation} (some : read ≠ [])
    (fails : rule.Fails read expected next) : (rule.orExpected described).Fails read expected next := by
  -- Some tokens were consumed by the failure.
  intro rest suitable
  simp only [Rule.orExpected, fails rest suitable, if_pos (length_lt_append some rest)]

/-- A rule that fails at once fails with the description of what could start it. -/
theorem Fails.orExpected_nil {described : Expectation} (fails : rule.Fails [] expected next) :
    (rule.orExpected described).Fails [] described next := by
  -- Nothing was consumed by the failure.
  intro rest suitable
  have failure := fails rest suitable
  rw [List.nil_append] at failure ⊢
  simp only [Rule.orExpected, failure, Nat.lt_irrefl, if_false]

/-- A rule that fails behind its first token fails the same when it may be absent. -/
theorem Fails.optional_of_ne (some : read ≠ []) (fails : rule.Fails read expected next) :
    rule.optional.Fails read expected next := by
  -- Some tokens were consumed by the failure.
  intro rest suitable
  simp only [Rule.optional, fails rest suitable, if_pos (length_lt_append some rest)]

section Repetition

variable {item : Rule (Option α)}

/-- As soon as there are as many rounds as tokens, more of them make no difference. -/
theorem manyUpTo_eq (consumes : Consumes item) (idle : item [] = .ok (none, [])) :
    ∀ (tokens : List Token) (rounds rounds' : Nat), tokens.length ≤ rounds →
      tokens.length ≤ rounds' → manyUpTo item rounds tokens = manyUpTo item rounds' tokens := by
  -- Each round but the last one takes a token.
  have empty : ∀ rounds, manyUpTo item rounds [] = .ok ([], []) := by
    intro rounds
    cases rounds with
    | zero => rfl
    | succ rounds => simp only [manyUpTo, bind_apply, idle, pure_apply]
  intro tokens rounds
  induction rounds generalizing tokens with
  | zero =>
    intro rounds' bound _
    obtain rfl := List.eq_nil_of_length_eq_zero (Nat.le_zero.mp bound)
    rw [empty, empty]
  | succ rounds ih =>
    intro rounds' bound bound'
    cases rounds' with
    | zero =>
      obtain rfl := List.eq_nil_of_length_eq_zero (Nat.le_zero.mp bound')
      rw [empty, empty]
    | succ rounds' =>
      simp only [manyUpTo, bind_apply]
      cases found : item tokens with
      | error failure => rfl
      | ok parsed =>
        obtain ⟨_ | result, rest⟩ := parsed
        · rfl
        · have shorter := consumes tokens result rest found
          simp only [bind_apply, ih rest rounds' (by omega) (by omega)]

/-- A repetition is one round, and the repetition again unless that round read nothing. -/
theorem many_eq (consumes : Consumes item) (idle : item [] = .ok (none, [])) :
    many item = (do
      match ← item with
      | none => return []
      | some result => return result :: (← many item)) := by
  -- There are always as many rounds left as tokens.
  funext tokens
  change manyUpTo item tokens.length tokens = _
  rw [manyUpTo_eq consumes idle tokens tokens.length (tokens.length + 1) (Nat.le_refl _)
    (Nat.le_succ _)]
  simp only [manyUpTo, bind_apply]
  cases found : item tokens with
  | error failure => rfl
  | ok parsed =>
    obtain ⟨_ | result, rest⟩ := parsed
    · rfl
    · have shorter := consumes tokens result rest found
      simp only [bind_apply, many]
      rw [manyUpTo_eq consumes idle rest tokens.length rest.length (by omega) (Nat.le_refl _)]

/-- A repetition of nothing reads nothing. -/
theorem Reads.many_nil (consumes : Consumes item) (idle : item [] = .ok (none, []))
    (stops : item.Reads [] none next) : (many item).Reads [] [] next := by
  -- The first round is the last one.
  rw [many_eq consumes idle]
  exact stops.bind_nil (Reads.pure _)

/-- A repetition reads what its first round reads and then what the others do. -/
theorem Reads.many_cons {results : List α} (consumes : Consumes item)
    (idle : item [] = .ok (none, [])) (first : item.Reads read (some result) next)
    (others : (many item).Reads read' results next')
    (meets : ∀ rest, next' (nextKind rest) → next (nextKind (read' ++ rest))) :
    (many item).Reads (read ++ read') (result :: results) next' := by
  -- The first round is not the last one.
  rw [many_eq consumes idle]
  exact first.bind others.map meets

end Repetition

end Rule

end Scriptlet
