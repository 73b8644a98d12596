import Scriptlet.Proofs.Syntax.Similarity

/-! Rules that make the same of tokens of the same kinds, whatever ranges these have. -/

namespace Scriptlet

/-- The range from one span to another keeps a relation between spans. -/
def Span.RespectsThrough (spans : Span → Span → Prop) : Prop :=
  ∀ first first' last last', spans first first' → spans last last' →
    spans (first.through last) (first'.through last')

/-- Tokens of the same kinds in the same order. -/
abbrev TokensAlike (spans : Span → Span → Prop) : List Token → List Token → Prop :=
  List.Forall₂ (Token.Similar spans)

/-- Two results that are alike, with alike tokens left, or the same failure at alike tokens. -/
inductive Parsed.Similar {α β : Type} (spans : Span → Span → Prop) (results : α → β → Prop)
    (limit : Nat) : Parsed α → Parsed β → Prop where
  | ok {result : α} {result' : β} {rest rest' : List Token} (alike : results result result')
    (left : TokensAlike spans rest rest') (shorter : rest.length ≤ limit) :
    Parsed.Similar spans results limit (.ok (result, rest)) (.ok (result', rest'))
  | error {expected : Expectation} {rest rest' : List Token}
    (left : TokensAlike spans rest rest') :
    Parsed.Similar spans results limit (.error ⟨expected, rest⟩) (.error ⟨expected, rest'⟩)

/-- A greater limit on the tokens left is a weaker one. -/
theorem Parsed.Similar.mono {α β : Type} {spans : Span → Span → Prop} {results : α → β → Prop}
    {limit greater : Nat} (more : limit ≤ greater) {parsed : Parsed α} {parsed' : Parsed β}
    (alike : Parsed.Similar spans results limit parsed parsed') :
    Parsed.Similar spans results greater parsed parsed' := by
  -- Failures have no limit.
  cases alike with
  | ok alike left shorter => exact .ok alike left (Nat.le_trans shorter more)
  | error left => exact .error left

/-- Two rules that make the same of alike tokens, as long as there are at most so many of them. -/
def Rule.Similar {α β : Type} (spans : Span → Span → Prop) (length : Nat)
    (results : α → β → Prop) (rule : Rule α) (rule' : Rule β) : Prop :=
  ∀ tokens tokens', TokensAlike spans tokens tokens' → tokens.length ≤ length →
    Parsed.Similar spans results tokens.length (rule tokens) (rule' tokens')

/-- Pairs with alike components. -/
def PairAlike {α α' β β' : Type} (firsts : α → α' → Prop) (seconds : β → β' → Prop)
    (pair : α × β) (pair' : α' × β') : Prop :=
  firsts pair.1 pair'.1 ∧ seconds pair.2 pair'.2

namespace Rule.Similar

variable {α α' β β' : Type} {spans : Span → Span → Prop} {length : Nat}
  {results : α → α' → Prop} {outcomes : β → β' → Prop}

/-- What holds of longer lists of tokens holds of shorter ones. -/
theorem mono {shorter : Nat} {rule : Rule α} {rule' : Rule α'} (fewer : shorter ≤ length)
    (alike : Rule.Similar spans length results rule rule') :
    Rule.Similar spans shorter results rule rule' :=
  fun tokens tokens' same bound => alike tokens tokens' same (Nat.le_trans bound fewer)

/-- Results that are alike need no tokens. -/
theorem pure {result : α} {result' : α'} (alike : results result result') :
    Rule.Similar spans length results (pure result) (pure result') :=
  fun _ _ same _ => .ok alike same (Nat.le_refl _)

/-- Two rules in a row are alike when each of them is. -/
theorem bind {first : Rule α} {first' : Rule α'} {next : α → Rule β} {next' : α' → Rule β'}
    (firsts : Rule.Similar spans length results first first')
    (nexts : ∀ result result', results result result' →
      Rule.Similar spans length outcomes (next result) (next' result')) :
    Rule.Similar spans length outcomes (first >>= next) (first' >>= next') := by
  -- The second rule runs on what the first one left, which is no longer than the tokens were.
  intro tokens tokens' same bound
  have start := firsts tokens tokens' same bound
  rw [bind_apply, bind_apply]
  generalize first tokens = parsed, first' tokens' = parsed' at start
  cases start with
  | error left => exact .error left
  | ok alike left shorter =>
    exact (nexts _ _ alike _ _ left (Nat.le_trans shorter bound)).mono shorter

/-- Alike rules have alike results in other terms. -/
theorem map_pure {first : Rule α} {first' : Rule α'} {told : α → β} {told' : α' → β'}
    (firsts : Rule.Similar spans length results first first')
    (tells : ∀ result result', results result result' → outcomes (told result) (told' result')) :
    Rule.Similar spans length outcomes (do return told (← first)) (do return told' (← first')) :=
  firsts.bind fun result result' alike => .pure (tells result result' alike)

/-- Rules are alike once they are on every first token of one kind and on no tokens at all. -/
theorem of_first {rule : Rule α} {rule' : Rule α'}
    (none : Parsed.Similar spans results 0 (rule []) (rule' []))
    (some : ∀ (kind : TokenKind) (span span' : Span) (rest rest' : List Token),
      spans span span' → TokensAlike spans rest rest' →
      TokensAlike spans (⟨kind, span⟩ :: rest) (⟨kind, span'⟩ :: rest') →
      rest.length + 1 ≤ length →
        Parsed.Similar spans results (rest.length + 1) (rule (⟨kind, span⟩ :: rest))
          (rule' (⟨kind, span'⟩ :: rest'))) :
    Rule.Similar spans length results rule rule' := by
  -- Alike lists are both empty, or start with tokens of one kind.
  intro tokens tokens' same bound
  cases same with
  | nil => exact none
  | @cons head head' rest rest' alike others =>
    obtain ⟨kind, span⟩ := head
    obtain ⟨kind', span'⟩ := head'
    obtain ⟨rfl, ranges⟩ := alike
    exact some kind span span' rest rest' ranges others (.cons ⟨rfl, ranges⟩ others) bound

/-- After a first token, alike rules for the tokens behind it are enough. -/
theorem rest {rule : Rule α} {rule' : Rule α'} {rest rest' : List Token}
    (alike : Rule.Similar spans length results rule rule') (same : TokensAlike spans rest rest')
    (bound : rest.length + 1 ≤ length + 1) :
    Parsed.Similar spans results (rest.length + 1) (rule rest) (rule' rest') :=
  (alike rest rest' same (Nat.le_of_succ_le_succ bound)).mono (Nat.le_succ _)

/-- One token of a kind is read alike. -/
theorem token {kind : TokenKind} {expected : Expectation} :
    Rule.Similar spans length (Token.Similar spans) (Rule.token kind expected)
      (Rule.token kind expected) := by
  -- The token is there on both sides or on none.
  refine .of_first (.error .nil) fun found span span' rest rest' ranges same whole _ => ?_
  by_cases expectedKind : found = kind
  · simp only [Rule.token, if_pos expectedKind]
    exact .ok ⟨rfl, ranges⟩ same (Nat.le_succ _)
  · simp only [Rule.token, if_neg expectedKind]
    exact .error whole

/-- An identifier is read alike. -/
theorem identifier {expected : Expectation} :
    Rule.Similar spans length (PairAlike (· = ·) spans) (Rule.identifier expected)
      (Rule.identifier expected) := by
  -- The token is there on both sides or on none.
  refine .of_first (.error .nil) fun found span span' rest rest' ranges same whole _ => ?_
  cases found with
  | identifier name => exact .ok ⟨rfl, ranges⟩ same (Nat.le_succ _)
  | _ => exact .error whole

/-- A token that may be there is read alike. -/
theorem token? {kind : TokenKind} :
    Rule.Similar spans length (Option.Rel (Token.Similar spans)) (Rule.token? kind)
      (Rule.token? kind) := by
  -- The token is there on both sides or on none.
  refine .of_first (.ok .none .nil (Nat.le_refl _))
    fun found span span' rest rest' ranges same whole _ => ?_
  by_cases expectedKind : found = kind
  · simp only [Rule.token?, if_pos expectedKind]
    exact .ok (.some ⟨rfl, ranges⟩) same (Nat.le_succ _)
  · simp only [Rule.token?, if_neg expectedKind]
    exact .ok .none whole (Nat.le_refl _)

/-- After a token that may be there, fewer tokens are left if it was. -/
theorem token?_bind {kind : TokenKind} {next : Option Token → Rule β}
    {next' : Option Token → Rule β'}
    (absent : Rule.Similar spans (length + 1) outcomes (next none) (next' none))
    (present : ∀ token token', token.Similar spans token' →
      Rule.Similar spans length outcomes (next (some token)) (next' (some token'))) :
    Rule.Similar spans (length + 1) outcomes (Rule.token? kind >>= next)
      (Rule.token? kind >>= next') := by
  -- The token is consumed on both sides or on none.
  refine .of_first (absent [] [] .nil (Nat.zero_le _))
    fun found span span' rest rest' ranges same whole bound => ?_
  by_cases expectedKind : found = kind
  · simp only [bind_apply, Rule.token?, if_pos expectedKind]
    exact (present ⟨found, span⟩ ⟨found, span'⟩ ⟨rfl, ranges⟩).rest same bound
  · simp only [bind_apply, Rule.token?, if_neg expectedKind]
    exact absent _ _ whole bound

/-- A rule described by what could start it fails alike. -/
theorem orExpected {rule : Rule α} {rule' : Rule α'} (expected : Expectation)
    (alike : Rule.Similar spans length results rule rule') :
    Rule.Similar spans length results (rule.orExpected expected) (rule'.orExpected expected) := by
  -- Alike lists are equally long, so both failures are kept or neither is.
  intro tokens tokens' same bound
  have read := alike tokens tokens' same bound
  unfold Rule.orExpected
  generalize rule tokens = parsed, rule' tokens' = parsed' at read
  cases read with
  | ok alike left shorter => exact .ok alike left shorter
  | error left =>
    simp only [left.length_eq, same.length_eq]
    split
    · exact .error left
    · exact .error same

/-- A rule that may be absent is absent on both sides or on none. -/
theorem optional {rule : Rule α} {rule' : Rule α'}
    (alike : Rule.Similar spans length results rule rule') :
    Rule.Similar spans length (Option.Rel results) rule.optional rule'.optional := by
  -- Alike lists are equally long, so both failures are kept or neither is.
  intro tokens tokens' same bound
  have read := alike tokens tokens' same bound
  unfold Rule.optional
  generalize rule tokens = parsed, rule' tokens' = parsed' at read
  cases read with
  | ok alike left shorter => exact .ok (.some alike) left shorter
  | error left =>
    simp only [left.length_eq, same.length_eq]
    split
    · exact .error left
    · exact .ok .none same (Nat.le_of_eq same.length_eq)

/-- Repetitions of alike rules are alike, whatever bounds their number. -/
theorem manyUpTo {item : Rule (Option α)} {item' : Rule (Option α')}
    (items : Rule.Similar spans length (Option.Rel results) item item') (rounds : Nat) :
    Rule.Similar spans length (List.Forall₂ results) (Rule.manyUpTo item rounds)
      (Rule.manyUpTo item' rounds) := by
  -- Both sides stop in the same round.
  induction rounds with
  | zero => exact .pure .nil
  | succ rounds ih =>
    refine items.bind fun result result' alike => ?_
    cases alike with
    | none => exact .pure .nil
    | some alike => exact ih.bind fun _ _ others => .pure (.cons alike others)

/-- Repetitions of alike rules are alike. -/
theorem many {item : Rule (Option α)} {item' : Rule (Option α')}
    (items : Rule.Similar spans length (Option.Rel results) item item') :
    Rule.Similar spans length (List.Forall₂ results) (Rule.many item) (Rule.many item') := by
  -- Alike lists are equally long, so both sides have the same bound.
  intro tokens tokens' same bound
  unfold Rule.many
  rw [← same.length_eq]
  exact items.manyUpTo tokens.length tokens tokens' same bound

/-- What is left after newlines is alike. -/
theorem afterNewlines {tokens tokens' : List Token} (same : TokensAlike spans tokens tokens') :
    TokensAlike spans (Rule.afterNewlines tokens) (Rule.afterNewlines tokens') := by
  -- Alike lists have newlines in the same places.
  induction same with
  | nil => exact .nil
  | cons alike others ih =>
    simp only [Rule.afterNewlines, ← alike.1]
    split
    · exact ih
    · exact .cons alike others

end Rule.Similar

/-- No more tokens are left after newlines than there were. -/
theorem Rule.length_afterNewlines_le (tokens : List Token) :
    (Rule.afterNewlines tokens).length ≤ tokens.length := by
  -- Each newline is one token fewer.
  induction tokens with
  | nil => exact Nat.le_refl _
  | cons token rest ih =>
    simp only [Rule.afterNewlines]
    split
    · exact Nat.le_succ_of_le ih
    · exact Nat.le_refl _

/-- Newlines are read alike. -/
theorem Rule.Similar.newlines {spans : Span → Span → Prop} {length : Nat} :
    Rule.Similar spans length (· = ·) Rule.newlines Rule.newlines := by
  -- Whether there were any shows in the lengths.
  intro tokens tokens' same bound
  have left := Rule.Similar.afterNewlines same
  exact .ok (by rw [left.length_eq, same.length_eq]) left (Rule.length_afterNewlines_le tokens)

end Scriptlet
