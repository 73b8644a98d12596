import Scriptlet.Proofs.Syntax.Reading

/-!
Rules that decide by the next token. Whatever such a rule has read it can read again before every
next token of the same kind, and before every one that is final for its result. Where it fails, the
kind of the next token alone is to blame: with other tokens there the rule would go through.
-/

namespace Scriptlet

/-- The end of the text is not among these tokens. -/
def NoEnd (tokens : List Token) : Prop :=
  ∀ token ∈ tokens, token.kind ≠ .endOfText

theorem NoEnd.nil : NoEnd [] := fun _ member => absurd member List.not_mem_nil

theorem NoEnd.cons {token : Token} {tokens : List Token} (first : token.kind ≠ .endOfText)
    (others : NoEnd tokens) : NoEnd (token :: tokens) := by
  intro found member
  rcases List.mem_cons.mp member with rfl | member
  · exact first
  · exact others found member

theorem NoEnd.append {tokens others : List Token} (left : NoEnd tokens) (right : NoEnd others) :
    NoEnd (tokens ++ others) := by
  intro found member
  rcases List.mem_append.mp member with member | member
  · exact left found member
  · exact right found member

namespace Rule

variable {α β : Type}

/-- On fewer than so many tokens, a rule decides by the next token. -/
structure Decided (length : Nat) (final : α → TokenKind → Prop) (rule : Rule α) : Prop where
  /-- What is read to a result is read to it before every token that is final. -/
  ok : ∀ tokens result rest, tokens.length < length → rule tokens = .ok (result, rest) →
    ∃ read, tokens = read ++ rest ∧ NoEnd read ∧
      rule.Reads read result fun kind => kind = nextKind rest ∨ final result kind
  /-- A failure lies at a token in the place of which others could have stood. -/
  error : ∀ tokens failure, tokens.length < length → rule tokens = .error failure →
    ∃ read, tokens = read ++ failure.rest ∧ NoEnd read ∧
      rule.Fails read failure.expected (· = nextKind failure.rest) ∧
      (read ≠ [] → ∃ more result, rule.Reads (read ++ more) result (final result))

/-- A rule can start with a suitable token, and then goes through. -/
def Starts (before : TokenKind → Prop) (final : α → TokenKind → Prop) (rule : Rule α) : Prop :=
  ∃ read result, rule.Reads read result (final result) ∧
    ∀ rest, final result (nextKind rest) → before (nextKind (read ++ rest))

/-- A rule that decides by the next token, and can start with a suitable one. -/
structure Guided (length : Nat) (before : TokenKind → Prop) (final : α → TokenKind → Prop)
    (rule : Rule α) : Prop extends Decided length final rule where
  starts : rule.Starts before final

variable {length : Nat} {before : TokenKind → Prop} {final : α → TokenKind → Prop}
  {final' : β → TokenKind → Prop} {rule : Rule α}

/-- What is decided on many tokens is decided on fewer. -/
theorem Decided.mono {shorter : Nat} (fewer : shorter ≤ length)
    (decided : Decided length final rule) : Decided shorter final rule where
  ok tokens result rest bound := decided.ok tokens result rest (Nat.lt_of_lt_of_le bound fewer)
  error tokens failure bound := decided.error tokens failure (Nat.lt_of_lt_of_le bound fewer)

/-- What starts with a suitable token starts with one that suits more. -/
theorem Starts.mono {wider : TokenKind → Prop} (starts : rule.Starts before final)
    (more : ∀ kind, before kind → wider kind) : rule.Starts wider final := by
  obtain ⟨read, result, reads, suitable⟩ := starts
  exact ⟨read, result, reads, fun rest finals => more _ (suitable rest finals)⟩

/-- What is guided on many tokens is guided on fewer, and from more kinds of tokens on. -/
theorem Guided.mono {shorter : Nat} {wider : TokenKind → Prop} (fewer : shorter ≤ length)
    (guided : Guided length before final rule) (more : ∀ kind, before kind → wider kind) :
    Guided shorter wider final rule where
  toDecided := guided.toDecided.mono fewer
  starts := guided.starts.mono more

/-- What is guided before some final tokens is guided before fewer of them. -/
theorem Guided.final_mono {fewer : α → TokenKind → Prop}
    (guided : Guided length before final rule)
    (less : ∀ result kind, fewer result kind → final result kind) :
    Guided length before fewer rule where
  ok tokens result rest bound read := by
    obtain ⟨taken, same, noEnd, reads⟩ := guided.ok tokens result rest bound read
    exact ⟨taken, same, noEnd, reads.mono fun _ => Or.imp_right (less _ _)⟩
  error tokens failure bound failed := by
    obtain ⟨taken, same, noEnd, fails, through⟩ := guided.error tokens failure bound failed
    refine ⟨taken, same, noEnd, fails, fun some => ?_⟩
    obtain ⟨more, result, reads⟩ := through some
    exact ⟨more, result, reads.mono fun _ => less _ _⟩
  starts := by
    obtain ⟨read, result, reads, suitable⟩ := guided.starts
    exact ⟨read, result, reads.mono fun _ => less _ _, fun rest finals =>
      suitable rest (less _ _ finals)⟩

/-- A rule that has no result on no tokens always reads some. -/
theorem Decided.reads_some (decided : Decided length final rule)
    (ends : ∀ result, final result .endOfText) {failure : Failure} (none : rule [] = .error failure)
    {tokens : List Token} {result : α} (bound : tokens.length < length) :
    rule tokens ≠ .ok (result, tokens) := by
  -- What read nothing would read nothing from no tokens as well.
  intro read
  obtain ⟨taken, same, _, reads⟩ := decided.ok tokens result tokens bound read
  obtain rfl := List.self_eq_append_left.mp same
  have empty := reads [] (.inr (ends result))
  rw [List.nil_append, none] at empty
  cases empty

/-- The rule that reads nothing decides nothing. -/
theorem Guided.pure {result : α} (suitable : ∀ kind, final result kind → before kind) :
    Guided length before final (pure result : Rule α) where
  ok tokens found rest _ read := by
    cases read
    exact ⟨[], rfl, .nil, Reads.pure _⟩
  error _ _ _ failed := by cases failed
  starts := ⟨[], result, Reads.pure _, fun _ finals => suitable _ finals⟩

/-- The rule that fails decides by no token. -/
theorem Decided.fail (expected : Expectation) :
    Decided length final (Rule.fail expected : Rule α) where
  ok _ _ _ _ read := by cases read
  error tokens failure _ failed := by
    cases failed
    exact ⟨[], rfl, .nil, fun _ _ => rfl, fun some => absurd rfl some⟩

/-- A token of a kind is decided by its kind. -/
theorem Guided.token {kind : TokenKind} {expected : Expectation} (inside : kind ≠ .endOfText)
    (suitable : before kind) :
    Guided length before (fun _ _ => True) (Rule.token kind expected) where
  ok tokens result rest _ read := by
    cases tokens with
    | nil => cases read
    | cons token tokens =>
      simp only [Rule.token] at read
      split at read
      · rename_i found
        cases read
        -- A token that was found is read before whatever comes next.
        refine ⟨[result], rfl, .cons (found ▸ inside) .nil, ?_⟩
        rw [← found]
        exact Reads.token result expected
      · cases read
  error tokens failure _ failed := by
    refine ⟨[], ?_⟩
    cases tokens with
    | nil =>
      cases failed
      refine ⟨rfl, .nil, fun rest same => ?_, fun some => absurd rfl some⟩
      cases rest with
      | nil => rfl
      | cons token rest =>
        -- The end of the text may be a token of its own, which is of another kind as well.
        have ended : token.kind = .endOfText := same
        exact if_neg fun found => inside (found.symm.trans ended)
    | cons token tokens =>
      simp only [Rule.token] at failed
      split at failed
      · cases failed
      · rename_i other
        cases failed
        refine ⟨rfl, .nil, fun rest same => ?_, fun some => absurd rfl some⟩
        cases rest with
        | nil => rfl
        | cons next rest =>
          have same : next.kind = token.kind := same
          exact if_neg fun found => other (same ▸ found)
  starts := ⟨[⟨kind, default⟩], ⟨kind, default⟩, Reads.token ⟨kind, default⟩ expected,
    fun _ _ => suitable⟩

/-- Whatever stands in the place of an identifier fails by its kind. -/
theorem identifier_eq_fail {expected : Expectation} {tokens : List Token}
    (others : ∀ name, nextKind tokens ≠ .identifier name) :
    Rule.identifier expected tokens = .error { expected, rest := tokens } := by
  cases tokens with
  | nil => rfl
  | cons token rest =>
    obtain ⟨kind, span⟩ := token
    cases kind with
    | identifier name => exact absurd rfl (others name)
    | _ => rfl

/-- An identifier is decided by its kind. -/
theorem Guided.identifier {expected : Expectation} (name : String)
    (suitable : before (.identifier name)) :
    Guided length before (fun _ _ => True) (Rule.identifier expected) where
  ok tokens result rest _ read := by
    cases tokens with
    | nil => cases read
    | cons token tokens =>
      obtain ⟨kind, span⟩ := token
      cases kind with
      | identifier name =>
        cases read
        exact ⟨[⟨.identifier name, span⟩], rfl, .cons (by simp) .nil,
          Reads.identifier name span expected⟩
      | _ => cases read
  error tokens failure _ failed := by
    -- The failure shows that the next token is no identifier.
    have differs : ∀ name, nextKind tokens ≠ .identifier name := by
      intro name same
      cases tokens with
      | nil => cases same
      | cons token tokens =>
        obtain ⟨kind, span⟩ := token
        cases same
        cases failed
    rw [identifier_eq_fail differs] at failed
    cases failed
    refine ⟨[], rfl, .nil, fun rest same => ?_, fun some => absurd rfl some⟩
    exact identifier_eq_fail fun name => same ▸ differs name
  starts := ⟨[⟨.identifier name, default⟩], (name, default),
    Reads.identifier name default expected, fun _ _ => suitable⟩

/-- A token that may be there is decided by its kind. -/
theorem Decided.token? {kind : TokenKind} (inside : kind ≠ .endOfText) :
    Decided length (fun found next => found = none → next ≠ kind) (Rule.token? kind) where
  ok tokens result rest _ read := by
    have absent : ∀ rest, nextKind rest ≠ kind → Rule.token? kind rest = .ok (none, rest) := by
      intro rest other
      cases rest with
      | nil => rfl
      | cons token rest => exact if_neg other
    by_cases found : nextKind tokens = kind
    · -- The token is there, and what stands behind it does not matter.
      cases tokens with
      | nil => exact absurd found.symm inside
      | cons token tokens =>
        simp only [nextKind_cons] at found
        simp only [Rule.token?, if_pos found] at read
        cases read
        refine ⟨[token], rfl, .cons (found ▸ inside) .nil, ?_⟩
        rw [← found]
        exact Reads.token? token
    · -- Another token is there, and any other one could stand in its place.
      rw [absent tokens found] at read
      cases read
      refine ⟨[], rfl, .nil, fun rest suitable => absent rest ?_⟩
      rcases suitable with same | other
      · exact same ▸ found
      · exact other rfl
  error tokens failure _ failed := by
    cases tokens with
    | nil => cases failed
    | cons token tokens =>
      simp only [Rule.token?] at failed
      split at failed <;> cases failed

/-- The newlines that come first are the same ones before any token that is none. -/
theorem afterNewlines_split (tokens : List Token) :
    ∃ read, tokens = read ++ afterNewlines tokens ∧ NoEnd read ∧
      nextKind (afterNewlines tokens) ≠ .newline ∧
      ∀ rest, nextKind rest ≠ .newline → afterNewlines (read ++ rest) = rest := by
  obtain ⟨read, same, each⟩ := exists_newlines tokens
  refine ⟨read, same, fun token member => by simp [each token member],
    nextKind_afterNewlines tokens, fun rest other => ?_⟩
  rw [afterNewlines_append each, afterNewlines_eq other]

/-- Newlines are decided by the token behind them. -/
theorem Decided.newlines : Decided length (fun _ next => next ≠ .newline) Rule.newlines where
  ok tokens result rest _ read := by
    obtain ⟨taken, same, noEnd, stops, all⟩ := afterNewlines_split tokens
    cases read
    refine ⟨taken, same, noEnd, fun rest suitable => ?_⟩
    have other : nextKind rest ≠ .newline := by
      rcases suitable with kind | other
      · exact kind ▸ stops
      · exact other
    have longer : (afterNewlines tokens).length < tokens.length ↔ 0 < taken.length := by
      have := congrArg List.length same
      simp only [List.length_append] at this
      omega
    simp only [Rule.newlines, all rest other, List.length_append, Except.ok.injEq, Prod.mk.injEq,
      and_true, longer, decide_eq_decide]
    omega
  error _ _ _ failed := by cases failed

/-- A rule described by what could start it is decided by the same tokens. -/
theorem Decided.orExpected {described : Expectation} (decided : Decided length final rule) :
    Decided length final (rule.orExpected described) where
  ok tokens result rest bound read := by
    cases parsed : rule tokens with
    | error failure =>
      simp only [Rule.orExpected, parsed] at read
      split at read <;> cases read
    | ok found =>
      simp only [Rule.orExpected, parsed] at read
      cases read
      obtain ⟨taken, same, noEnd, reads⟩ := decided.ok tokens result rest bound parsed
      exact ⟨taken, same, noEnd, reads.orExpected⟩
  error tokens failure bound failed := by
    cases parsed : rule tokens with
    | ok found =>
      simp only [Rule.orExpected, parsed] at failed
      cases failed
    | error inner =>
      obtain ⟨taken, same, noEnd, fails, through⟩ := decided.error tokens inner bound parsed
      by_cases some : taken = []
      · -- Nothing was read, so that the rule is described otherwise.
        subst some same
        rw [List.nil_append] at parsed failed
        simp only [Rule.orExpected, parsed, Nat.lt_irrefl, if_false] at failed
        cases failed
        exact ⟨[], rfl, .nil, fails.orExpected_nil, fun some => absurd rfl some⟩
      · -- Something was read, so that the failure is kept.
        have consumed : inner.rest.length < tokens.length := by
          have shorter := length_lt_append some inner.rest
          rwa [← same] at shorter
        simp only [Rule.orExpected, parsed, if_pos consumed] at failed
        cases failed
        refine ⟨taken, same, noEnd, fails.orExpected some, fun some => ?_⟩
        obtain ⟨more, result, reads⟩ := through some
        exact ⟨more, result, reads.orExpected⟩

/-- A rule described by what could start it is guided by the same tokens. -/
theorem Guided.orExpected {described : Expectation} (guided : Guided length before final rule) :
    Guided length before final (rule.orExpected described) where
  toDecided := guided.toDecided.orExpected
  starts := by
    obtain ⟨read, result, reads, suitable⟩ := guided.starts
    exact ⟨read, result, reads.orExpected, suitable⟩

/-- A rule that may be absent is decided by the same tokens, and by those it fails at when it is. -/
theorem Decided.optional {final' : Option α → TokenKind → Prop} {expected : Expectation}
    (decided : Decided length final rule)
    (present : ∀ result kind, final' (some result) kind → final result kind)
    (absent : rule.Fails [] expected (final' none)) : Decided length final' rule.optional where
  ok tokens result rest bound read := by
    cases parsed : rule tokens with
    | ok found =>
      obtain ⟨found, left⟩ := found
      simp only [Rule.optional, parsed] at read
      cases read
      obtain ⟨taken, same, noEnd, reads⟩ := decided.ok tokens found rest bound parsed
      exact ⟨taken, same, noEnd, (reads.mono fun _ => Or.imp_right (present _ _)).optional⟩
    | error inner =>
      obtain ⟨taken, same, noEnd, fails, _⟩ := decided.error tokens inner bound parsed
      simp only [Rule.optional, parsed] at read
      split at read
      · cases read
      · -- The failure lies at the first token, and so it does at every other unsuitable one.
        rename_i same'
        cases read
        have lengths := congrArg List.length same
        simp only [List.length_append] at lengths
        obtain rfl : taken = [] := List.eq_nil_of_length_eq_zero (by omega)
        rw [List.nil_append] at same
        subst same
        refine ⟨[], rfl, .nil, fun rest suitable => ?_⟩
        rcases suitable with kind | final
        · exact fails.optional rest kind
        · exact absent.optional rest final
  error tokens failure bound failed := by
    cases parsed : rule tokens with
    | ok found =>
      simp only [Rule.optional, parsed] at failed
      cases failed
    | error inner =>
      obtain ⟨taken, same, noEnd, fails, through⟩ := decided.error tokens inner bound parsed
      simp only [Rule.optional, parsed] at failed
      split at failed
      · -- Something was read, so that the failure is kept.
        rename_i consumed
        cases failed
        have some : taken ≠ [] := by
          rintro rfl
          rw [List.nil_append] at same
          rw [same] at consumed
          exact Nat.lt_irrefl _ consumed
        refine ⟨taken, same, noEnd, fails.optional_of_ne some, fun some => ?_⟩
        obtain ⟨more, result, reads⟩ := through some
        exact ⟨more, _, (reads.mono fun _ => present _ _).optional⟩
      · cases failed

end Rule

end Scriptlet
