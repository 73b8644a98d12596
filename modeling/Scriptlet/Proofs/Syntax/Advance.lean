import Scriptlet.Proofs.Syntax.FirstFault

/-!
Rules stop inside of the tokens that they start in, no earlier than they have started, and with a
result further on. Two rules are in step when they do the same besides; this goes through the ways
in which rules are put together.
-/

namespace Scriptlet

/-- A token that is not the end of the text has another one behind it. -/
theorem EndsOnce.next_inside {tokens : List Token} {place : Nat} {token : Token}
    (ends : EndsOnce tokens) (found : tokens[place]? = some token)
    (other : token.kind ≠ .endOfText) : place + 1 < tokens.length := by
  obtain ⟨body, stop, rfl, -, kind⟩ := ends
  have inside := (List.getElem?_eq_some_iff.mp found).1
  rw [List.length_append, List.length_singleton] at inside ⊢
  by_contra last
  -- The last token is the end of the text.
  obtain rfl : place = body.length := by omega
  rw [List.getElem?_concat_length] at found
  exact other (Option.some.inj found ▸ kind)

/--
What a rule that starts at an index of the tokens has come to: it has stopped inside of them, no
earlier than it has started, and with a result as many tokens further on as that takes at least.
-/
inductive Parsed.Stops {α : Type} (tokens : List Token) (start : Nat) (least : α → Nat) :
    Parsed α → Prop where
  | ok {result : α} {stop : Nat} (advanced : start + least result ≤ stop)
    (inside : stop < tokens.length) :
    Parsed.Stops tokens start least (.ok (result, tokens.drop stop))
  | error {expected : Expectation} {stop : Nat} (later : start ≤ stop)
    (inside : stop < tokens.length) :
    Parsed.Stops tokens start least (.error ⟨expected, tokens.drop stop⟩)

/-- Where a rule that starts further on has stopped is far enough for less. -/
theorem Parsed.Stops.mono {α : Type} {tokens : List Token} {start further : Nat}
    {least more : α → Nat} {parsed : Parsed α} (stops : parsed.Stops tokens further more)
    (later : start ≤ further) (fewer : ∀ result, start + least result ≤ further + more result) :
    parsed.Stops tokens start least := by
  cases stops with
  | ok advanced inside => exact .ok (Nat.le_trans (fewer _) advanced) inside
  | error later' inside => exact .error (Nat.le_trans later later') inside

/-- Two rules that come to the same at an index of the tokens, and stop where rules have to. -/
structure Rule.InStepAt {α : Type} (tokens : List Token) (start : Nat) (least : α → Nat)
    (parsed parsed' : Parsed α) : Prop where
  same : parsed = parsed'
  stops : parsed'.Stops tokens start least

/-- Two rules that are in step at every index of the tokens from some one on. -/
def Rule.InStep {α : Type} (tokens : List Token) (first : Nat) (least : α → Nat)
    (rule rule' : Rule α) : Prop :=
  ∀ start, first ≤ start → start < tokens.length →
    Rule.InStepAt tokens start least (rule (tokens.drop start)) (rule' (tokens.drop start))

/-- Two rules that come to the same wherever they start at some index of the tokens or later. -/
def Rule.SameFrom {α : Type} (tokens : List Token) (first : Nat) (rule rule' : Rule α) : Prop :=
  ∀ start, first ≤ start → start < tokens.length →
    rule (tokens.drop start) = rule' (tokens.drop start)

namespace Rule

variable {α β : Type} {tokens : List Token} {first start : Nat} {least : α → Nat}
  {total : β → Nat} {rule rule' : Rule α}

namespace InStepAt

variable {kind : TokenKind} {span : Span}

/-- The same failure, where both rules have started. -/
theorem fail {expected : Expectation} {rest : List Token} (whole : tokens.drop start = rest)
    (inside : start < tokens.length) :
    InStepAt tokens start least (.error ⟨expected, rest⟩) (.error ⟨expected, rest⟩) :=
  ⟨rfl, whole ▸ .error (Nat.le_refl _) inside⟩

/-- The same result behind one token. -/
theorem one {result : α} (inside : start + 1 < tokens.length) (single : least result ≤ 1) :
    InStepAt tokens start least (.ok (result, tokens.drop (start + 1)))
      (.ok (result, tokens.drop (start + 1))) :=
  ⟨rfl, .ok (Nat.add_le_add_left single start) inside⟩

/-- The same result, for which nothing is taken. -/
theorem none {result : α} {rest : List Token} (whole : tokens.drop start = rest)
    (inside : start < tokens.length) (free : least result = 0) :
    InStepAt tokens start least (.ok (result, rest)) (.ok (result, rest)) :=
  ⟨rfl, whole ▸ .ok (Nat.le_of_eq (by rw [free, Nat.add_zero])) inside⟩

end InStepAt

/-- Newlines are followed by another token, and behind the first of them if there is one. -/
theorem afterNewlines_drop (ends : EndsOnce tokens) {start : Nat} (inside : start < tokens.length) :
    ∃ stop, stop < tokens.length ∧ afterNewlines (tokens.drop start) = tokens.drop stop ∧
      (tokens[start].kind = .newline → start < stop) ∧
      (tokens[start].kind ≠ .newline → stop = start) := by
  -- The induction is on how many tokens are left; a newline is never the last one of them.
  by_cases newline : tokens[start].kind = .newline
  · have more := ends.next_inside (List.getElem?_eq_getElem inside) (by simp [newline])
    obtain ⟨stop, before, same, later, here⟩ := afterNewlines_drop ends more
    refine ⟨stop, before, ?_, fun _ => ?_, fun other => absurd newline other⟩
    · rw [List.drop_eq_getElem_cons inside, afterNewlines, if_pos newline, same]
    · by_cases again : tokens[start + 1].kind = .newline
      · exact Nat.lt_of_succ_lt (later again)
      · exact Nat.lt_of_succ_le (Nat.le_of_eq (here again).symm)
  · refine ⟨start, inside, ?_, fun same => absurd same newline, fun _ => rfl⟩
    rw [List.drop_eq_getElem_cons inside, afterNewlines, if_neg newline]
termination_by tokens.length - start

/-- Newlines are read up to another token, and there are some if the first token is one. -/
theorem newlines_drop (ends : EndsOnce tokens) {start : Nat} (inside : start < tokens.length) :
    ∃ stop, stop < tokens.length ∧
      newlines (tokens.drop start) =
        .ok (decide (tokens[start].kind = .newline), tokens.drop stop) ∧
      (tokens[start].kind = .newline → start < stop) ∧
      (tokens[start].kind ≠ .newline → stop = start) := by
  obtain ⟨stop, before, same, later, here⟩ := afterNewlines_drop ends inside
  refine ⟨stop, before, ?_, later, here⟩
  -- Fewer tokens are left exactly if the first one was a newline.
  have some : (tokens.drop stop).length < (tokens.drop start).length ↔
      tokens[start].kind = .newline := by
    rw [List.length_drop, List.length_drop]
    by_cases newline : tokens[start].kind = .newline
    · have := later newline
      exact iff_of_true (by omega) newline
    · exact iff_of_false (by rw [here newline]; exact Nat.lt_irrefl _) newline
  simp only [newlines, same, some]

namespace InStep

/-- Rules in step are so from every later index on, and for less. -/
theorem mono {later : Nat} {fewer : α → Nat} (alike : InStep tokens first least rule rule')
    (further : first ≤ later) (less : ∀ result, fewer result ≤ least result) :
    InStep tokens later fewer rule rule' := by
  -- Every later index is one of those that are spoken of.
  intro start from_ inside
  obtain ⟨same, stops⟩ := alike start (Nat.le_trans further from_) inside
  exact ⟨same, stops.mono (Nat.le_refl _) fun result => Nat.add_le_add_left (less result) start⟩

/-- Rules in step behind a first token are in step with that token in front. -/
theorem behind (alike : InStep tokens (first + 1) least rule rule') {fewer : α → Nat}
    (from_ : first ≤ start) (inside : start + 1 < tokens.length)
    (less : ∀ result, fewer result ≤ least result + 1) :
    InStepAt tokens start fewer (rule (tokens.drop (start + 1)))
      (rule' (tokens.drop (start + 1))) := by
  obtain ⟨same, stops⟩ := alike (start + 1) (Nat.succ_le_succ from_) inside
  exact ⟨same, stops.mono (Nat.le_succ start) fun result => by have := less result; omega⟩

/-- Rules are in step once they are on every first token. -/
theorem of_first (ends : EndsOnce tokens)
    (each : ∀ kind span start, first ≤ start → start < tokens.length →
      tokens.drop start = ⟨kind, span⟩ :: tokens.drop (start + 1) →
      (kind ≠ .endOfText → start + 1 < tokens.length) →
      InStepAt tokens start least (rule (⟨kind, span⟩ :: tokens.drop (start + 1)))
        (rule' (⟨kind, span⟩ :: tokens.drop (start + 1)))) :
    InStep tokens first least rule rule' := by
  -- There is a first token at every index inside of the tokens.
  intro start from_ inside
  have whole := List.drop_eq_getElem_cons inside
  rw [whole]
  exact each _ _ start from_ inside whole fun other =>
    ends.next_inside (List.getElem?_eq_getElem inside) other

/-- The rule that reads nothing is in step with itself. -/
theorem pure {result : α} (free : least result = 0) :
    InStep tokens first least (pure result) (pure result) :=
  fun _ _ inside => .none rfl inside free

/-- Two rules in a row; the second one starts behind what the first one takes. -/
theorem bind {next next' : α → Rule β} (firsts : InStep tokens first least rule rule')
    (nexts : ∀ result, InStep tokens (first + least result)
      (fun outcome => total outcome - least result) (next result) (next' result)) :
    InStep tokens first total (rule >>= next) (rule' >>= next') := by
  intro start from_ inside
  obtain ⟨same, stops⟩ := firsts start from_ inside
  rw [bind_apply, bind_apply, same]
  generalize rule' (tokens.drop start) = parsed at stops
  cases stops with
  | error later inside => exact ⟨rfl, .error later inside⟩
  | @ok result stop advanced inside =>
    -- The second rule starts where the first one has stopped, and is short of what that has taken.
    obtain ⟨same, stops⟩ := nexts result stop (by omega) inside
    exact ⟨same, stops.mono (by omega) fun outcome => by omega⟩

/-- Rules in step are so in other terms that take no more. -/
theorem map {told : α → β} (alike : InStep tokens first least rule rule')
    (less : ∀ result, total (told result) ≤ least result) :
    InStep tokens first total (do return told (← rule)) (do return told (← rule')) :=
  alike.bind fun result => .pure (Nat.sub_eq_zero_of_le (less result))

/-- One token of a kind. -/
theorem token (ends : EndsOnce tokens) {kind : TokenKind} (expected : Expectation)
    (inner : kind ≠ .endOfText) :
    InStep tokens first (fun _ => 1) (Rule.token kind expected) (Rule.token kind expected) := by
  -- A token of the kind is not the last one, and any other one is not taken.
  refine .of_first ends fun found span start from_ inside whole more => ?_
  by_cases same : found = kind
  · simp only [Rule.token, if_pos same]
    exact .one (more (same ▸ inner)) (Nat.le_refl _)
  · simp only [Rule.token, if_neg same]
    exact .fail whole inside

/-- One reserved word. -/
theorem keyword (ends : EndsOnce tokens) (word : Keyword) (expected : Expectation) :
    InStep tokens first (fun _ => 1) (Rule.keyword word expected) (Rule.keyword word expected) :=
  token ends expected (by simp)

/-- One symbol. -/
theorem symbol (ends : EndsOnce tokens) (symbol : Symbol) (expected : Expectation) :
    InStep tokens first (fun _ => 1) (Rule.symbol symbol expected)
      (Rule.symbol symbol expected) :=
  token ends expected (by simp)

/-- One identifier. -/
theorem identifier (ends : EndsOnce tokens) (expected : Expectation) :
    InStep tokens first (fun _ => 1) (Rule.identifier expected) (Rule.identifier expected) := by
  -- An identifier is not the last token, and any other token is not taken.
  refine .of_first ends fun kind span start from_ inside whole more => ?_
  cases kind with
  | identifier name => exact .one (more (by simp)) (Nat.le_refl _)
  | _ => exact .fail whole inside

/-- A token of a kind, if it comes next, is one more that is taken. -/
theorem token? (ends : EndsOnce tokens) {kind : TokenKind} (inner : kind ≠ .endOfText) :
    InStep tokens first (fun found => found.toList.length) (Rule.token? kind)
      (Rule.token? kind) := by
  -- What counts is whether there is a token in the result.
  refine .of_first ends fun found span start from_ inside whole more => ?_
  by_cases same : found = kind
  · simp only [Rule.token?, if_pos same]
    exact .one (more (same ▸ inner)) (Nat.le_refl _)
  · simp only [Rule.token?, if_neg same]
    exact .none whole inside rfl

/-- What goes on by whether a token is there starts behind it if it is. -/
theorem token?_bind (ends : EndsOnce tokens) {kind : TokenKind} {next next' : Option Token → Rule β}
    (inner : kind ≠ .endOfText)
    (absent : InStep tokens first total (next Option.none) (next' Option.none))
    (present : ∀ token, InStep tokens (first + 1) (fun outcome => total outcome - 1)
      (next (some token)) (next' (some token))) :
    InStep tokens first total (Rule.token? kind >>= next) (Rule.token? kind >>= next') := by
  refine (token? ends inner).bind fun found => ?_
  cases found with
  | none => exact absent
  | some token => exact present token

/-- Newlines take at least one token if there are any. -/
theorem newlines (ends : EndsOnce tokens) :
    InStep tokens first (fun found => if found then 1 else 0) Rule.newlines Rule.newlines := by
  intro start from_ inside
  obtain ⟨stop, before, read, later, here⟩ := newlines_drop ends inside
  rw [read]
  refine ⟨rfl, .ok ?_ before⟩
  by_cases newline : tokens[start].kind = .newline
  · simp only [newline, decide_true, if_true]
    exact later newline
  · simp [newline, here newline]

/-- A rule that is described by what could start it. -/
theorem orExpected (alike : InStep tokens first least rule rule') (expected : Expectation) :
    InStep tokens first least (rule.orExpected expected) (rule'.orExpected expected) := by
  intro start from_ inside
  obtain ⟨same, stops⟩ := alike start from_ inside
  unfold Rule.orExpected
  rw [same]
  generalize rule' (tokens.drop start) = parsed at stops
  refine ⟨rfl, ?_⟩
  cases stops with
  | ok advanced inside => exact .ok advanced inside
  | error later inside' =>
    dsimp only
    split
    · exact .error later inside'
    · -- What failed at once is told of where it has started.
      exact .error (Nat.le_refl _) inside

/-- A rule that may be absent takes nothing when it is. -/
theorem optional (alike : InStep tokens first least rule rule') :
    InStep tokens first (fun found => found.elim 0 least) rule.optional rule'.optional := by
  intro start from_ inside
  obtain ⟨same, stops⟩ := alike start from_ inside
  unfold Rule.optional
  rw [same]
  generalize rule' (tokens.drop start) = parsed at stops
  refine ⟨rfl, ?_⟩
  cases stops with
  | ok advanced inside => exact .ok advanced inside
  | error later inside' =>
    dsimp only
    split
    · exact .error later inside'
    · -- What failed at once is absent, and nothing has been taken.
      exact .ok (Nat.le_refl _) inside

/-- What is read again and again, at most so many times. -/
theorem manyUpTo {item item' : Rule (Option α)} {least : Option α → Nat}
    (items : InStep tokens first least item item') (rounds : Nat) :
    InStep tokens first (fun _ => 0) (Rule.manyUpTo item rounds) (Rule.manyUpTo item' rounds) := by
  -- The induction is on how often the item may be read.
  induction rounds with
  | zero => exact .pure rfl
  | succ rounds ih =>
    refine (items.mono (Nat.le_refl _) fun _ => Nat.zero_le _).bind fun found => ?_
    cases found with
    | none => exact .pure rfl
    | some result => exact ih.map fun _ => Nat.le_refl _

/-- What is read again and again. -/
theorem many {item item' : Rule (Option α)} {least : Option α → Nat}
    (items : InStep tokens first least item item') :
    InStep tokens first (fun _ => 0) (Rule.many item) (Rule.many item') :=
  fun start => items.manyUpTo (tokens.drop start).length start

end InStep

/-- A rule that comes to the same as one that stops where it has to is in step with that one. -/
theorem SameFrom.inStep (same : SameFrom tokens first rule rule')
    (stops : InStep tokens first least rule' rule') : InStep tokens first least rule rule' :=
  fun start from_ inside => ⟨same start from_ inside, (stops start from_ inside).stops⟩

/--
Two rules that are rounds of a loop, and in step: on a token of some kinds they take it, whatever
they come to, and on every other one they read nothing.
-/
structure InRounds (tokens : List Token) (first : Nat) (enters : TokenKind → Prop)
    (item item' : Rule (Option α)) : Prop where
  enter : ∀ start, first ≤ start → ∀ inside : start < tokens.length, enters tokens[start].kind →
    InStepAt tokens (start + 1) (fun _ => 0) (item (tokens.drop start)) (item' (tokens.drop start))
  leave : ∀ start, first ≤ start → ∀ inside : start < tokens.length, ¬ enters tokens[start].kind →
    item (tokens.drop start) = .ok (none, tokens.drop start) ∧
      item' (tokens.drop start) = .ok (none, tokens.drop start)

/-- A repetition that does something else once it has gone on for so many rounds. -/
def manyThen (item : Rule (Option α)) (beyond : Rule (List α)) : Nat → Rule (List α)
  | 0 => beyond
  | rounds + 1 => do
    match ← item with
    | none => return []
    | some result => return result :: (← manyThen item beyond rounds)

/-- A repetition comes to its end when it has gone on for so many rounds. -/
theorem manyUpTo_eq_manyThen (item : Rule (Option α)) (rounds : Nat) :
    manyUpTo item rounds = manyThen item (Pure.pure []) rounds := by
  -- The rounds are the same one by one.
  induction rounds with
  | zero => rfl
  | succ rounds ih =>
    rw [manyUpTo, ih]
    rfl

namespace InRounds

variable {enters : TokenKind → Prop} {item item' : Rule (Option α)}

/-- A round takes a token if it has a result. -/
theorem inStep (alike : InRounds tokens first enters item item') :
    InStep tokens first (fun found => found.toList.length) item item' := by
  -- A round that reads nothing has no result.
  intro start from_ inside
  by_cases enter : enters tokens[start].kind
  · obtain ⟨same, stops⟩ := alike.enter start from_ inside enter
    exact ⟨same, stops.mono (Nat.le_succ start) fun result => by cases result <;> simp⟩
  · obtain ⟨left, left'⟩ := alike.leave start from_ inside enter
    rw [left, left']
    exact .none rfl inside rfl

/-- As many rounds as there are tokens left are enough, and nothing beyond them is come to. -/
theorem manyThen (alike : InRounds tokens first enters item item') (beyond beyond' : Rule (List α))
    {rounds rounds' : Nat} (enough : tokens.length ≤ first + rounds)
    (enough' : tokens.length ≤ first + rounds') :
    InStep tokens first (fun _ => 0) (Rule.manyThen item beyond rounds)
      (Rule.manyThen item' beyond' rounds') := by
  -- The induction is on the rounds that are left; every one that goes on takes a token.
  induction rounds generalizing first rounds' with
  | zero => exact fun start from_ inside => by omega
  | succ rounds ih =>
    cases rounds' with
    | zero => exact fun start from_ inside => by omega
    | succ rounds' =>
      refine alike.inStep.bind fun found => ?_
      cases found with
      | none => exact .pure rfl
      | some result =>
        have later : InRounds tokens (first + 1) enters item item' :=
          ⟨fun start from_ => alike.enter start (by omega),
            fun start from_ => alike.leave start (by omega)⟩
        exact (ih later (by omega) (by omega)).map fun _ => Nat.le_refl _

/-- What comes behind a token of a kind is a round of a loop that this kind begins. -/
theorem whenNext (ends : EndsOnce tokens) {kind : TokenKind} (inner : kind ≠ .endOfText)
    {rule rule' : Rule α} (alike : InStep tokens (first + 1) (fun _ => 0) rule rule') :
    InRounds tokens first (· = kind)
      (do match ← Rule.token? kind with
        | none => return none
        | some _ => return some (← rule))
      (do match ← Rule.token? kind with
        | none => return none
        | some _ => return some (← rule')) where
  enter start from_ inside same := by
    have found : InStep tokens (first + 1) (fun _ => 0) (do return some (← rule))
        (do return some (← rule')) := alike.map fun _ => Nat.le_refl _
    have more := ends.next_inside (List.getElem?_eq_getElem inside) (same ▸ inner)
    simp only [List.drop_eq_getElem_cons inside, bind_apply, Rule.token?, if_pos same]
    exact found (start + 1) (by omega) more
  leave start from_ inside other := by
    simp only [List.drop_eq_getElem_cons inside, bind_apply, Rule.token?, if_neg other, pure_apply,
      and_self]

/-- An operator and its operand are a round of a loop that the operators begin. -/
theorem operation (ends : EndsOnce tokens) {operand operand' : Rule Node}
    {operator? : TokenKind → Option BinaryOperator} (inner : operator? .endOfText = none)
    (operands : InStep tokens (first + 1) (fun _ => 0) operand operand') :
    InRounds tokens first (fun kind => (operator? kind).isSome) (Rule.operation operand operator?)
      (Rule.operation operand' operator?) where
  enter start from_ inside stands := by
    obtain ⟨operator, found⟩ := Option.isSome_iff_exists.mp stands
    have both : InStep tokens (first + 1) (fun _ => 0)
        (do return some (operator, ← operand)) (do return some (operator, ← operand')) :=
      operands.map fun _ => Nat.le_refl _
    have more := ends.next_inside (List.getElem?_eq_getElem inside) (by
      intro stop
      rw [stop, inner] at found
      cases found)
    simp only [List.drop_eq_getElem_cons inside, Rule.operation, found]
    exact both (start + 1) (by omega) more
  leave start from_ inside other := by
    have found := Option.not_isSome_iff_eq_none.mp other
    simp only [List.drop_eq_getElem_cons inside, Rule.operation, found, and_self]

end InRounds

/-- What may follow newlines is a round of a loop that they begin. -/
theorem InRounds.afterNewlines (ends : EndsOnce tokens)
    (alike : InStep tokens (first + 1) least rule rule') :
    InRounds tokens first (· = .newline)
      (do if ← Rule.newlines then rule.optional else return none)
      (do if ← Rule.newlines then rule'.optional else return none) where
  enter start from_ inside newline := by
    obtain ⟨stop, before, read, later, -⟩ := newlines_drop ends inside
    rw [bind_apply, bind_apply, read]
    -- Whether the rule reads something or not, the newlines have been taken.
    have from' := later newline
    obtain ⟨same, stops⟩ := alike.optional stop (by omega) before
    simp only [newline, decide_true, if_true]
    exact ⟨same, stops.mono from' fun _ => by omega⟩
  leave start from_ inside other := by
    obtain ⟨stop, -, read, -, here⟩ := newlines_drop ends inside
    rw [bind_apply, bind_apply, read, here other]
    simp [other]

/-- Operands between operators take what the first of them does. -/
theorem InStep.chain (ends : EndsOnce tokens) {operand operand' : Rule Node}
    {operator? : TokenKind → Option BinaryOperator} (inner : operator? .endOfText = none)
    (operands : InStep tokens first (fun _ => 1) operand operand') :
    InStep tokens first (fun _ => 1) (Rule.chain operand operator?)
      (Rule.chain operand' operator?) := by
  refine operands.bind fun left => ?_
  -- The rounds start behind the first operand, but do not count.
  have others : InRounds tokens (first + 1) _ (Rule.operation operand operator?)
      (Rule.operation operand' operator?) :=
    .operation ends inner (operands.mono (by omega) fun _ => Nat.zero_le 1)
  exact others.inStep.many.map fun _ => Nat.le_refl _

end Rule

end Scriptlet
