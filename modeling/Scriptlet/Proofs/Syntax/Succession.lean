import Scriptlet.Proofs.Syntax.Decision

/-!
Rules in a row decide by the next token when each of them does, when the later one can start with
what is final for the earlier one, and when what follows both may follow the earlier one alone.
-/

namespace Scriptlet

namespace Rule

variable {α β : Type} {length : Nat} {before : TokenKind → Prop} {final : α → TokenKind → Prop}
  {final' : β → TokenKind → Prop} {rule : Rule α} {follow : α → Rule β}

/-- Two rules in a row are decided when each is, and when the one can hand over to the other. -/
theorem Decided.bind_at (first : Decided length final rule)
    (second : ∀ tokens result rest, tokens.length < length → rule tokens = .ok (result, rest) →
      Decided (rest.length + 1) final' (follow result))
    (starts : ∀ result, (follow result).Starts (final result) final')
    (handover : ∀ result tokens outcome, tokens.length < length →
      follow result tokens = .ok (outcome, tokens) →
      ∀ kind, final' outcome kind → final result kind) :
    Decided length final' (rule >>= follow) where
  ok tokens outcome rest bound parsed := by
    obtain ⟨result, left, one, two⟩ := bind_eq_ok.mp parsed
    obtain ⟨taken, rfl, noEnd, reads⟩ := first.ok tokens result left bound one
    obtain ⟨taken', rfl, noEnd', reads'⟩ :=
      (second _ result left bound one).ok left outcome rest (Nat.lt_succ_self _) two
    refine ⟨taken ++ taken', (List.append_assoc ..).symm, noEnd.append noEnd', ?_⟩
    refine reads.bind reads' fun others suitable => ?_
    by_cases some : taken' = []
    · -- The second rule reads nothing, so that the first one meets what follows both.
      subst some
      rw [List.nil_append] at two bound ⊢
      refine suitable.imp_right fun finals => handover result rest outcome ?_ two _ finals
      simp only [List.length_append] at bound
      omega
    · exact .inl (nextKind_append some others rest)
  error tokens failure bound failed := by
    rcases bind_eq_error.mp failed with one | ⟨result, left, one, two⟩
    · -- The first rule fails; when it goes through, the second one can start.
      obtain ⟨taken, same, noEnd, fails, through⟩ := first.error tokens failure bound one
      refine ⟨taken, same, noEnd, fails.bind, fun some => ?_⟩
      obtain ⟨more, result, reads⟩ := through some
      obtain ⟨after, outcome, reads', suitable⟩ := starts result
      refine ⟨more ++ after, outcome, ?_⟩
      rw [← List.append_assoc]
      exact reads.bind reads' suitable
    · -- The second rule fails; behind what the first one read, it can start or go through.
      obtain ⟨taken, rfl, noEnd, reads⟩ := first.ok tokens result left bound one
      obtain ⟨taken', rfl, noEnd', fails, through⟩ :=
        (second _ result left bound one).error left failure (Nat.lt_succ_self _) two
      refine ⟨taken ++ taken', (List.append_assoc ..).symm, noEnd.append noEnd', ?_, fun _ => ?_⟩
      · exact reads.bind_fails fails fun others same => .inl (nextKind_append_congr same taken')
      · by_cases some : taken' = []
        · subst some
          obtain ⟨more, outcome, reads', suitable⟩ := starts result
          refine ⟨more, outcome, ?_⟩
          rw [List.append_nil]
          exact reads.bind reads' fun others finals => .inr (suitable others finals)
        · obtain ⟨more, outcome, reads'⟩ := through some
          refine ⟨more, outcome, ?_⟩
          rw [List.append_assoc]
          refine reads.bind reads' fun others _ => .inl ?_
          rw [List.append_assoc]
          exact nextKind_append some _ _

/-- Two rules in a row can start where the first one can. -/
theorem Starts.bind (first : rule.Starts before final)
    (second : ∀ result, (follow result).Starts (final result) final') :
    (rule >>= follow).Starts before final' := by
  obtain ⟨read, result, reads, suitable⟩ := first
  obtain ⟨read', outcome, reads', suitable'⟩ := second result
  refine ⟨read ++ read', outcome, reads.bind reads' suitable', fun rest finals => ?_⟩
  rw [List.append_assoc]
  exact suitable _ (suitable' rest finals)

/-- Two rules in a row are decided when the second one can start with what is final for the first. -/
theorem Decided.bind (first : Decided length final rule)
    (second : ∀ result, Guided length (final result) final' (follow result))
    (handover : ∀ result tokens outcome, tokens.length < length →
      follow result tokens = .ok (outcome, tokens) →
      ∀ kind, final' outcome kind → final result kind) :
    Decided length final' (rule >>= follow) := by
  refine first.bind_at (fun tokens result rest bound read => ?_)
    (fun result => (second result).starts) handover
  obtain ⟨taken, rfl, _, _⟩ := first.ok tokens result rest bound read
  refine (second result).toDecided.mono ?_
  simp only [List.length_append] at bound
  omega

/-- Two rules in a row are guided when each is, and when the one can hand over to the other. -/
theorem Guided.bind (first : Guided length before final rule)
    (second : ∀ result, Guided length (final result) final' (follow result))
    (handover : ∀ result tokens outcome, tokens.length < length →
      follow result tokens = .ok (outcome, tokens) →
      ∀ kind, final' outcome kind → final result kind) :
    Guided length before final' (rule >>= follow) where
  toDecided := first.toDecided.bind second handover
  starts := first.starts.bind fun result => (second result).starts

/-- A rule hands over to any rule that always reads something. -/
theorem Guided.bind_some (first : Guided length before final rule)
    (second : ∀ result, Guided length (final result) final' (follow result))
    (ends : ∀ outcome, final' outcome .endOfText)
    (some : ∀ result, ∃ failure, follow result [] = .error failure) :
    Guided length before final' (rule >>= follow) := by
  -- Nothing has to be handed over, because the second rule never reads nothing.
  refine first.bind second fun result tokens outcome bound read => ?_
  obtain ⟨failure, none⟩ := some result
  exact absurd read ((second result).toDecided.reads_some ends none bound)

/-- A rule that may be followed by anything hands over to every rule. -/
theorem Guided.bind_any (first : Guided length before (fun _ _ => True) rule)
    (second : ∀ result, Guided length (fun _ => True) final' (follow result)) :
    Guided length before final' (rule >>= follow) :=
  first.bind second fun _ _ _ _ _ _ _ => trivial

/-- A change of the result decides nothing. -/
theorem Guided.map {told : α → β} (guided : Guided length before final rule)
    (less : ∀ result kind, final' (told result) kind → final result kind) :
    Guided length before final' (do return told (← rule) : Rule β) :=
  guided.bind (fun result => .pure (less result)) fun _ _ _ _ read => by
    cases read
    exact less _

/--
What goes on by whether a token is there is decided when both ways to go on are; behind the token
there is one token fewer.
-/
theorem Decided.token?_bind {shorter : Nat} {kind : TokenKind} {follow : Option Token → Rule β}
    (enough : length ≤ shorter + 1) (inside : kind ≠ .endOfText)
    (absent : Guided length (· ≠ kind) final' (follow none))
    (present : ∀ token, Guided shorter (fun _ => True) final' (follow (some token)))
    (handover : ∀ tokens outcome, tokens.length < length →
      follow none tokens = .ok (outcome, tokens) → ∀ next, final' outcome next → next ≠ kind) :
    Decided length final' (Rule.token? kind >>= follow) := by
  -- What goes on, what it can start with, and what is handed over, each with and without the token.
  refine (Decided.token? inside).bind_at ?_ ?_ ?_
  · intro tokens result rest bound read
    cases tokens with
    | nil =>
      cases read
      exact absent.toDecided.mono bound
    | cons token tokens =>
      simp only [List.length_cons] at bound
      simp only [Rule.token?] at read
      split at read
      · cases read
        exact (present token).toDecided.mono (by omega)
      · cases read
        exact absent.toDecided.mono bound
  · rintro (_ | token)
    · exact absent.starts.mono fun _ other _ => other
    · exact (present token).starts.mono fun _ _ found => by cases found
  · rintro (_ | token) tokens outcome bound read next finals found
    · exact handover tokens outcome bound read next finals
    · cases found

/-- Nothing has to be handed over when something is read without the token as well. -/
theorem Decided.token?_bind_some {kind : TokenKind} {follow : Option Token → Rule β}
    (inside : kind ≠ .endOfText) (absent : Guided length (· ≠ kind) final' (follow none))
    (present : ∀ token, Guided length (fun _ => True) final' (follow (some token)))
    (ends : ∀ outcome, final' outcome .endOfText)
    (some : ∃ failure, follow none [] = .error failure) :
    Decided length final' (Rule.token? kind >>= follow) := by
  refine .token?_bind (Nat.le_succ _) inside absent present fun tokens outcome bound read => ?_
  obtain ⟨failure, none⟩ := some
  exact absurd read (absent.toDecided.reads_some ends none bound)

/-- A token that may be there can start what reads it or what goes on behind it. -/
theorem Starts.token? {kind : TokenKind} {follow : Option Token → Rule β} (suitable : before kind)
    (second : ∀ token, (follow (some token)).Starts (fun _ => True) final') :
    (Rule.token? kind >>= follow).Starts before final' := by
  -- The token is there.
  obtain ⟨read, outcome, reads, _⟩ := second ⟨kind, default⟩
  have first : (Rule.token? kind).Reads [⟨kind, default⟩] (some ⟨kind, default⟩) fun _ => True :=
    Reads.token? ⟨kind, default⟩
  exact ⟨_, outcome, first.bind reads fun _ _ => trivial, fun _ _ => suitable⟩

/-- A token that may be there can be left out by what starts otherwise. -/
theorem Starts.noToken {kind : TokenKind} {follow : Option Token → Rule β}
    (other : ∀ next, before next → next ≠ kind) (second : (follow none).Starts before final') :
    (Rule.token? kind >>= follow).Starts before final' := by
  obtain ⟨read, outcome, reads, suitable⟩ := second
  exact ⟨read, outcome, (Reads.noToken other).bind reads suitable, suitable⟩

/-- What goes on behind a token of a kind is decided when it can go on behind that token. -/
theorem Decided.token_bind {kind : TokenKind} {expected : Expectation} {follow : Token → Rule β}
    (inside : kind ≠ .endOfText)
    (second : ∀ token, Guided length (fun _ => True) final' (follow token)) :
    Decided (length + 1) final' (Rule.token kind expected >>= follow) := by
  have first : Guided (length + 1) (fun _ => True) (fun _ _ => True) (Rule.token kind expected) :=
    .token inside trivial
  refine first.toDecided.bind_at (fun tokens token rest bound read => ?_)
    (fun token => (second token).starts) fun _ _ _ _ _ _ _ => trivial
  cases tokens with
  | nil => cases read
  | cons next tokens =>
    -- Behind the token there is one token fewer.
    simp only [Rule.token] at read
    split at read <;> cases read
    exact (second token).toDecided.mono (Nat.lt_of_succ_lt_succ bound)

/--
A rule is decided when it does, before each kind of tokens, what a rule does that is decided. Where
that one may read nothing, it has to stand for the rule before all that is final, too.
-/
theorem Decided.of_kinds (ends : ∀ result, final result .endOfText)
    (cases : ∀ kind, ∃ other : Rule α,
      (∀ tokens, nextKind tokens = kind → rule tokens = other tokens) ∧
      Decided length final other ∧ ((∃ failure, other [] = .error failure) ∨
        ∀ result tokens, final result (nextKind tokens) → rule tokens = other tokens)) :
    Decided length final rule where
  ok tokens result rest bound read := by
    obtain ⟨other, same, decided, empty⟩ := cases (nextKind tokens)
    rw [same tokens rfl] at read
    obtain ⟨taken, rfl, noEnd, reads⟩ := decided.ok tokens result rest bound read
    refine ⟨taken, rfl, noEnd, fun others suitable => ?_⟩
    have agrees : rule (taken ++ others) = other (taken ++ others) := by
      rcases suitable with kind | finals
      · exact same _ (nextKind_append_congr kind taken)
      · by_cases some : taken = []
        · -- The other rule reads nothing before what is final.
          subst some
          rcases empty with ⟨failure, none⟩ | stays
          · exact absurd read (decided.reads_some ends none bound)
          · exact stays result others finals
        · exact same _ (nextKind_append some others rest)
    rw [agrees]
    exact reads others suitable
  error tokens failure bound failed := by
    -- Every next token of the same kind leads to the same rule.
    obtain ⟨other, same, decided, _⟩ := cases (nextKind tokens)
    rw [same tokens rfl] at failed
    obtain ⟨taken, rfl, noEnd, fails, through⟩ := decided.error tokens failure bound failed
    refine ⟨taken, rfl, noEnd, fun others suitable => ?_, fun some => ?_⟩
    · rw [same _ (nextKind_append_congr suitable taken)]
      exact fails others suitable
    · obtain ⟨more, result, reads⟩ := through some
      refine ⟨more, result, fun others suitable => ?_⟩
      rw [List.append_assoc, same _ (nextKind_append some (more ++ others) failure.rest),
        ← List.append_assoc]
      exact reads others suitable

/-- A rule that decides on its first token is decided when each of its cases is. -/
theorem Decided.of_first (ends : ∀ result, final result .endOfText)
    (cases : ∀ kind, (kind ≠ .endOfText ∧ ∃ inner : Span → Rule α,
        (∀ span rest, rule (⟨kind, span⟩ :: rest) = inner span rest) ∧
        ∀ span, Guided length (fun _ => True) final (inner span)) ∨
      ∃ other : Rule α, (∀ tokens, nextKind tokens = kind → rule tokens = other tokens) ∧
        Decided (length + 1) final other ∧ ((∃ failure, other [] = .error failure) ∨
          ∀ result tokens, final result (nextKind tokens) → rule tokens = other tokens)) :
    Decided (length + 1) final rule := by
  refine .of_kinds ends fun kind => ?_
  rcases cases kind with ⟨inside, inner, known, guided⟩ | other
  · -- The first token is read, and then what it introduces; no other token is ever met there.
    refine ⟨Rule.token kind .atom >>= fun token => inner token.span, fun tokens next => ?_,
      .token_bind inside fun token => guided token.span, .inl ⟨_, rfl⟩⟩
    cases tokens with
    | nil => exact absurd next.symm inside
    | cons token tokens =>
      obtain ⟨found, span⟩ := token
      obtain rfl : found = kind := next
      rw [known, Rule.bind_apply, Rule.token, if_pos rfl]
  · exact other

section Repetition

variable {item : Rule (Option α)} {final : Option α → TokenKind → Prop}

/-- A repetition is decided when each of its rounds is, and when one can hand over to the next. -/
theorem Decided.many (consumes : Consumes item) (idle : item [] = .ok (none, []))
    (decided : Decided length final item) (nothing : item.Reads [] none (final none))
    (final' : List α → TokenKind → Prop)
    (stops : ∀ results kind, final' results kind → final none kind)
    (last : ∀ results result kind, final' (results ++ [result]) kind → final (some result) kind) :
    Decided length final' (Rule.many item) := by
  -- Each round leaves fewer tokens to the next one; what is final depends on the rounds before.
  induction length using Nat.strongRecOn generalizing final' with
  | ind length ih =>
    rw [many_eq consumes idle]
    have others : ∀ shorter, shorter < length → ∀ result,
        Decided shorter (fun results => final' (result :: results)) (Rule.many item) :=
      fun shorter fewer result => ih shorter fewer (decided.mono (Nat.le_of_lt fewer))
        (fun results => final' (result :: results)) (fun results => stops _)
        fun results next => last (result :: results) next
    refine decided.bind_at ?_ ?_ ?_
    · rintro tokens (_ | result) rest bound read
      · exact (Guided.pure fun _ finals => finals : Guided _ (final' []) final' _).toDecided
      · have shorter := consumes tokens result rest read
        exact (others (rest.length + 1) (by omega) result).bind_at
          (fun _ results _ _ _ => (Guided.pure fun _ finals => finals :
            Guided _ (final' (result :: results)) final' _).toDecided)
          (fun results => ⟨[], result :: results, Reads.pure _, fun _ finals => finals⟩)
          fun results tokens outcome _ read => by cases read; exact fun _ finals => finals
    · rintro (_ | result)
      · exact ⟨[], [], Reads.pure _, fun _ finals => stops _ _ finals⟩
      · have none : (Rule.many item).Reads [] [] (final' [result]) :=
          Reads.many_nil consumes idle (nothing.mono fun _ => stops _ _)
        exact ⟨[], [result], none.map, fun _ finals => last [] result _ finals⟩
    · rintro (_ | result) tokens outcome bound read
      · cases read
        exact stops []
      · -- When the other rounds read nothing, there are none of them.
        obtain ⟨results, left, read, same⟩ := bind_eq_ok.mp read
        cases same
        have empty : results = [] := by
          rw [many_eq consumes idle] at read
          obtain ⟨_ | next, left, one, two⟩ := bind_eq_ok.mp read
          · cases two
            rfl
          · have shorter := consumes _ _ _ one
            obtain ⟨results, rest, two, same⟩ := bind_eq_ok.mp two
            cases same
            obtain ⟨taken, same, _⟩ :=
              (others (left.length + 1) (by omega) next).ok left results tokens (by omega) two
            rw [same, List.length_append] at shorter
            omega
        subst empty
        exact last [] result

/-- A repetition is guided when its rounds are decided and it may read nothing. -/
theorem Guided.many {ends : TokenKind → Prop} (consumes : Consumes item)
    (idle : item [] = .ok (none, [])) (decided : Decided length (fun _ => ends) item)
    (nothing : item.Reads [] none ends) (suitable : ∀ kind, ends kind → before kind) :
    Guided length before (fun _ => ends) (Rule.many item) where
  toDecided := decided.many consumes idle nothing _ (fun _ _ => id) fun _ _ _ => id
  starts := ⟨[], [], Reads.many_nil consumes idle nothing, fun _ => suitable _⟩

end Repetition

end Rule

end Scriptlet
