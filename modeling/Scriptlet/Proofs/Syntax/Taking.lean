import Scriptlet.Proofs.Syntax.Reading

/-!
What a rule takes from the tokens that it is given, and what that is to its result. A rule may look
at one token more, but takes a prefix, and leaves the rest as it is.
-/

namespace Scriptlet.Rule

variable {α β : Type}

/-- Whatever tokens a rule takes fit its result. -/
def Takes (fits : List Token → α → Prop) (rule : Rule α) : Prop :=
  ∀ tokens result rest, rule tokens = .ok (result, rest) →
    ∃ read, tokens = read ++ rest ∧ fits read result

namespace Takes

variable {rule : Rule α} {fits : List Token → α → Prop} {fits' : List Token → β → Prop}

/-- A rule that takes nothing. -/
theorem pure {result : α} (fine : fits [] result) : Rule.Takes fits (pure result) := by
  intro tokens _ _ parsed
  cases parsed
  exact ⟨[], rfl, fine⟩

/-- Two rules in a row take tokens in a row. -/
theorem bind {follow : α → Rule β} (takes : rule.Takes fits)
    (next : ∀ front result, fits front result →
      (follow result).Takes fun rear outcome => fits' (front ++ rear) outcome) :
    (rule >>= follow).Takes fits' := by
  intro tokens outcome rest parsed
  obtain ⟨result, left, first, second⟩ := bind_eq_ok.mp parsed
  obtain ⟨front, rfl, fine⟩ := takes _ _ _ first
  obtain ⟨rear, rfl, done⟩ := next _ result fine _ _ _ second
  exact ⟨front ++ rear, (List.append_assoc front rear rest).symm, done⟩

/-- The result may be told in other terms. -/
theorem map {told : α → β} (takes : rule.Takes fits)
    (fine : ∀ read result, fits read result → fits' read (told result)) :
    Rule.Takes fits' (do return told (← rule)) := by
  refine takes.bind fun read result fits => .pure ?_
  rw [List.append_nil]
  exact fine read result fits

/-- What the tokens are to the result may be told in weaker terms. -/
theorem imp {weaker : List Token → α → Prop} (takes : rule.Takes fits)
    (weaken : ∀ read result, fits read result → weaker read result) : rule.Takes weaker := by
  intro tokens result rest parsed
  obtain ⟨read, same, fine⟩ := takes _ _ _ parsed
  exact ⟨read, same, weaken _ _ fine⟩

/-- A rule that fails takes nothing. -/
theorem fail (expected : Expectation) : (Rule.fail expected).Takes fits :=
  nofun

/-- One token of a kind. -/
theorem token (kind : TokenKind) (expected : Expectation) :
    (Rule.token kind expected).Takes fun read token => read = [token] ∧ token.kind = kind := by
  intro tokens result rest parsed
  cases tokens with
  | nil => cases parsed
  | cons first others =>
    by_cases same : first.kind = kind
    · simp only [Rule.token, same, ↓reduceIte] at parsed
      cases parsed
      exact ⟨[_], rfl, rfl, same⟩
    · simp only [Rule.token, same, ↓reduceIte] at parsed
      cases parsed

/-- One identifier, with its range. -/
theorem identifier (expected : Expectation) :
    (Rule.identifier expected).Takes fun read named =>
      read = [⟨.identifier named.1, named.2⟩] := by
  intro tokens result rest parsed
  unfold Rule.identifier at parsed
  split at parsed
  · cases parsed
    exact ⟨[_], rfl, rfl⟩
  · cases parsed

/-- A token of a kind, if it comes next. -/
theorem token? (kind : TokenKind) :
    (Rule.token? kind).Takes fun read found =>
      read = found.toList ∧ ∀ token ∈ found, token.kind = kind := by
  intro tokens result rest parsed
  cases tokens with
  | nil =>
    cases parsed
    exact ⟨[], rfl, rfl, nofun⟩
  | cons first others =>
    by_cases same : first.kind = kind
    · simp only [Rule.token?, same, ↓reduceIte] at parsed
      cases parsed
      exact ⟨[_], rfl, rfl, fun _ found => Option.some.inj found ▸ same⟩
    · simp only [Rule.token?, same, ↓reduceIte] at parsed
      cases parsed
      exact ⟨[], rfl, rfl, nofun⟩

/-- Newlines, and whether there are any. -/
theorem newlines : Rule.newlines.Takes fun read found =>
    (∀ token ∈ read, token.kind = .newline) ∧ (found = true → read ≠ []) := by
  intro tokens found rest parsed
  cases parsed
  obtain ⟨read, whole, each⟩ := exists_newlines tokens
  refine ⟨read, whole, each, ?_⟩
  rintro some rfl
  -- Without any newline nothing is taken away.
  rw [List.nil_append] at whole
  rw [← whole] at some
  simp at some

/-- A better description of a failure. -/
theorem orExpected (takes : rule.Takes fits) (expected : Expectation) :
    (rule.orExpected expected).Takes fits := by
  intro tokens result rest parsed
  unfold Rule.orExpected at parsed
  split at parsed
  · rename_i found
    exact takes _ _ _ (found.trans parsed)
  · split at parsed <;> cases parsed

/-- A rule that may be absent. -/
theorem optional (takes : rule.Takes fits) :
    rule.optional.Takes fun read found => found.elim (read = []) (fits read) := by
  intro tokens found rest parsed
  unfold Rule.optional at parsed
  split at parsed
  · rename_i result left first
    cases parsed
    exact takes _ _ _ first
  · split at parsed
    · cases parsed
    · cases parsed
      exact ⟨[], rfl, rfl⟩

/-- What is taken again and again. -/
theorem many {item : Rule (Option α)} {absent : List Token → Prop}
    {rows : List Token → List α → Prop}
    (takes : item.Takes fun read found => found.elim (absent read) (fits read))
    (stop : rows [] []) (last : ∀ read, absent read → rows read [])
    (more : ∀ front result rear results, fits front result → rows rear results →
      rows (front ++ rear) (result :: results)) : (Rule.many item).Takes rows := by
  have bounded (rounds : Nat) : (Rule.manyUpTo item rounds).Takes rows := by
    -- The induction is on how often the item may be read.
    induction rounds with
    | zero => exact .pure stop
    | succ rounds ih =>
      refine takes.bind fun front found fine => ?_
      cases found with
      | none => exact .pure (by simpa using last front fine)
      | some result =>
        refine ih.bind fun rear results others => .pure ?_
        simpa using more front result rear results fine others
  exact fun tokens => bounded tokens.length tokens

/-- An item behind a token of a kind, if that comes next. -/
theorem behind {item : Rule α} {kind : TokenKind} (takes : item.Takes fits) :
    Rule.Takes (fun read found => found.elim (read = []) fun result =>
      ∃ token rest, read = token :: rest ∧ token.kind = kind ∧ fits rest result) (do
        match ← Rule.token? kind with
        | none => return none
        | some _ => return some (← item)) := by
  refine (token? kind).bind fun front found ⟨same, kinds⟩ => ?_
  subst same
  cases found with
  | none => exact .pure rfl
  | some token =>
    refine takes.bind fun read result fine => .pure ?_
    exact ⟨token, read, by simp, kinds token rfl, fine⟩

/-- An operator and the operand behind it, if an operator comes next. -/
theorem operation {operand : Rule Node} {fits : List Token → Node → Prop}
    (takes : operand.Takes fits) (operator? : TokenKind → Option BinaryOperator) :
    (Rule.operation operand operator?).Takes fun read found => found.elim (read = []) fun next =>
      ∃ token rest, read = token :: rest ∧ operator? token.kind = some next.1 ∧
        fits rest next.2 := by
  intro tokens found rest parsed
  cases tokens with
  | nil =>
    cases parsed
    exact ⟨[], rfl, rfl⟩
  | cons token others =>
    simp only [Rule.operation] at parsed
    split at parsed
    · cases parsed
      exact ⟨[], rfl, rfl⟩
    · rename_i operator present
      obtain ⟨right, left, first, second⟩ := bind_eq_ok.mp parsed
      cases second
      obtain ⟨read, rfl, fine⟩ := takes _ _ _ first
      exact ⟨token :: read, rfl, token, read, rfl, present, fine⟩

end Takes

end Scriptlet.Rule
