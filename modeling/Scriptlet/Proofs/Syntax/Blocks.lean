import Scriptlet.Proofs.Syntax.Rereading

/-!
Statements, blocks and what they are bodies of are read back. What follows a body tells where it
ends: nothing goes on with a statement there, and no newline goes on with a block.
-/

namespace Scriptlet

open Grammar

/-- What may follow a body of some form: nothing that goes on with a statement or with a block. -/
def BodyForm.Stops (form : BodyForm) (kind : TokenKind) : Prop :=
  kind.Stops ∧ (form = .block → kind ≠ .newline)

/-- Nothing goes on with a body before what ends it. -/
theorem BodyForm.Final.stops {form : BodyForm} {kind : TokenKind} (final : form.Final kind) :
    form.Stops kind := by
  refine ⟨final.ends.stops, ?_⟩
  rintro rfl
  exact TokenKind.Closes.ne_newline final

/-- What is written so is read back as a statement, and starts with no newline. -/
def Node.StatedFrom (kinds : List TokenKind) (node : Node) : Prop :=
  ∀ read : List Token, read.map Token.kind = kinds →
    ∃ result : Node, result.Alike node ∧
      full.statement.Reads read result TokenKind.Stops ∧
      ∀ rest, nextKind (read ++ rest) ≠ .newline

/-- What stands on a line of its own is read back as a statement. -/
def Node.ReadableStatement (node : Node) : Prop :=
  node.StatedFrom node.written

/-- Statements in a row are read back as a block. -/
def Node.ReadableBlock (node : Node) : Prop :=
  ∀ read : List Token, read.map Token.kind = node.written →
    ∃ result : Node, result.Alike node ∧
      full.statements.Reads read result BodyForm.block.Stops

/-- A body is read back in its form. -/
def Node.ReadableBody (form : BodyForm) (node : Node) : Prop :=
  ∀ read : List Token, read.map Token.kind = form.opening ++ node.written →
    ∃ result : Node, result.Alike node ∧ full.body.Reads read (result, form) form.Stops

section Statements

/-- An expression raises no signal, and starts with no newline. -/
theorem TokenKind.StartsExpression.plain {kind : TokenKind} (starts : kind.StartsExpression) :
    ¬ Signals kind ∧ kind ≠ .newline := by
  constructor
  · intro signals
    simp only [Signals, List.mem_cons, List.not_mem_nil, or_false] at signals
    rcases signals with rfl | rfl | rfl <;>
      simp [TokenKind.StartsExpression, TokenKind.StartsAtom] at starts
  · rintro rfl
    simp [TokenKind.StartsExpression, TokenKind.StartsAtom] at starts

/-- What is read back as an expression is read back as a statement. -/
theorem Node.RereadFrom.stated {node : Node} {kinds : List TokenKind}
    (reread : node.RereadFrom kinds) : node.StatedFrom kinds := by
  intro read written
  obtain ⟨result, alike, expression, starts⟩ := reread read written
  exact ⟨result, alike, reads_statement (fun rest => (starts rest).plain.1)
    (expression.mono fun _ (stops : TokenKind.Stops _) => stops.1),
    fun rest => (starts rest).plain.2⟩

/-- An expression is read back as a statement. -/
theorem Node.Readable.statement {node : Node} (readable : node.Readable) :
    node.ReadableStatement :=
  readable.expression.stated

/-- A word that leaves a round of a loop is read back. -/
theorem readable_continuing {span : Span} : (Node.continuing span).ReadableStatement := by
  intro read written
  obtain ⟨span, rfl⟩ := map_eq_singleton written
  refine ⟨.continuing span, .continuing trivial, fun rest _ => ?_, by simp⟩
  rw [full_statement]
  rfl

/-- A word that leaves a loop is read back. -/
theorem readable_breaking {span : Span} : (Node.breaking span).ReadableStatement := by
  intro read written
  obtain ⟨span, rfl⟩ := map_eq_singleton written
  refine ⟨.breaking span, .breaking trivial, fun rest _ => ?_, by simp⟩
  rw [full_statement]
  rfl

/-- A word that leaves a function is read back, with its value if it has one. -/
theorem readable_returning {span : Span} {value : Option Node}
    (values : ∀ found ∈ value, found.Readable) : (Node.returning span value).ReadableStatement := by
  intro read written
  obtain ⟨word, rest, rfl, same⟩ := map_eq_cons written
  cases value with
  | none =>
    -- What stops an expression does not start one either.
    obtain rfl := List.map_eq_nil_iff.mp same
    have absent : full.expression.optional.Reads [] none TokenKind.Stops :=
      (fails_expression.mono fun _ (stops : TokenKind.Stops _) => stops.2).optional
    have inner : (full.returning word).Reads [] (.returning (word.through word) none)
        TokenKind.Stops := absent.map
    refine ⟨.returning (word.through word) none, .returning trivial .none, ?_, by simp⟩
    intro others stops
    rw [full_statement]
    exact inner others stops
  | some value =>
    obtain ⟨result, alike, expression, _⟩ := (values value rfl).expression rest same
    have present : full.expression.optional.Reads rest (some result) TokenKind.Stops :=
      (expression.mono fun _ (stops : TokenKind.Stops _) => stops.1).optional
    have inner : (full.returning word).Reads rest
        (.returning (word.through result.span) (some result)) TokenKind.Stops := present.map
    refine ⟨.returning (word.through result.span) (some result),
      .returning trivial (.some alike), ?_, by simp⟩
    intro others stops
    rw [full_statement]
    exact inner others stops

/-- Behind a newline, another statement is read. -/
theorem reads_anotherStatement {newline : Span} {read : List Token} {result : Node}
    {next : TokenKind → Prop} (statement : full.statement.Reads read result next)
    (starts : ∀ rest, nextKind (read ++ rest) ≠ .newline) :
    full.anotherStatement.Reads (⟨.newline, newline⟩ :: read) (some result) next := by
  rw [full_statement] at statement
  exact (Rule.Reads.newline newline).bind statement.optional fun rest _ => starts rest

/-- Statements between newlines are read back, however each of them is written. -/
theorem reads_statements {statements : List Node} {write : Node → List TokenKind}
    (nonempty : statements ≠ [])
    (each : ∀ statement ∈ statements, statement.StatedFrom (write statement)) {read : List Token}
    (written : read.map Token.kind = separated .newline (statements.map write)) :
    ∃ span results, List.Forall₂ Node.Alike results statements ∧
      full.statements.Reads read (.sequence span results) BodyForm.block.Stops := by
  obtain ⟨first, more, rfl⟩ := List.exists_cons_of_ne_nil nonempty
  obtain ⟨one, others, rfl, oneSame, otherSame⟩ := List.map_eq_append_iff.mp written
  obtain ⟨result, alike, statement, starts⟩ := each first List.mem_cons_self one oneSame
  -- Every statement but the first one stands behind a newline.
  have behind : ∀ statement ∈ more, ∀ read : List Token,
      read.map Token.kind = .newline :: write statement → ∃ result : Node,
        result.Alike statement ∧
          full.anotherStatement.Reads read (Option.some result) TokenKind.Stops := by
    intro node member read written
    obtain ⟨newline, rest, rfl, same⟩ := map_eq_cons written
    obtain ⟨result, alike, statement, starts⟩ :=
      each node (List.mem_cons_of_mem _ member) rest same
    exact ⟨result, alike, reads_anotherStatement statement starts⟩
  obtain ⟨results, allAlike, repeated, meets⟩ := reads_separated consumes_anotherStatement rfl
    (reads_noStatement.mono fun _ (stops : BodyForm.block.Stops _) => stops.2 rfl)
    (TokenKind.Ends.stops (.inr rfl)) (fun _ stops => stops.1) more behind others otherSame
  refine ⟨result.span.through (results.getLast?.getD result).span, result :: results,
    .cons alike allAlike, ?_⟩
  have statement : full.statementRule.Reads one result TokenKind.Stops := by
    rw [← full_statement]
    exact statement
  -- No newline comes first, so the rule starts with the first statement.
  have whole : full.statementsRule.Reads (one ++ others)
      (.sequence (result.span.through (results.getLast?.getD result).span) (result :: results))
      BodyForm.block.Stops := by
    refine Rule.Reads.noNewlines.bind (statement.bind repeated.map meets) fun rest _ => ?_
    have start := starts (others ++ rest)
    rw [← List.append_assoc] at start
    exact start
  rw [full_statements]
  exact whole

/-- Statements between newlines are read back as a block. -/
theorem readable_sequence {span : Span} {statements : List Node} (nonempty : statements ≠ [])
    (each : ∀ statement ∈ statements, statement.ReadableStatement) :
    (Node.sequence span statements).ReadableBlock := by
  intro read written
  change read.map Token.kind = separated .newline (Node.writtenEach statements) at written
  rw [Node.writtenEach_eq] at written
  obtain ⟨span, results, alike, reads⟩ := reads_statements nonempty each written
  exact ⟨.sequence span results, .sequence trivial alike, reads⟩

end Statements

section Bodies

variable {form : BodyForm} {body : Node}

/-- One statement is read back as a body. -/
theorem Node.ReadableStatement.inline (readable : body.ReadableStatement) :
    body.ReadableBody .inline := by
  intro read written
  obtain ⟨result, alike, statement, starts⟩ := readable read written
  have absent : (Rule.token? .newline).Reads [] none (· ≠ .newline) :=
    Rule.Reads.noToken fun _ => id
  have reads : full.statement.Reads read result BodyForm.inline.Stops :=
    statement.mono fun _ stops => stops.1
  exact ⟨result, alike, absent.bind reads.map fun rest _ => starts rest⟩

/-- A block is read back as a body. -/
theorem Node.ReadableBlock.block (readable : body.ReadableBlock) : body.ReadableBody .block := by
  intro read written
  obtain ⟨newline, rest, rfl, same⟩ := map_eq_cons written
  obtain ⟨result, alike, statements⟩ := readable rest same
  have present : (Rule.token? .newline).Reads [⟨.newline, newline⟩] (some ⟨.newline, newline⟩)
      fun _ => True := Rule.Reads.token? ⟨.newline, newline⟩
  exact ⟨result, alike, present.bind statements.map fun _ _ => trivial⟩

/-- The end of a body is read back, and ends the body. -/
theorem reads_bodyEnd (expected : Expectation) {read : List Token}
    (written : read.map Token.kind = form.closing) :
    (bodyEnd form expected).Reads read () TokenKind.Ends ∧
      ∀ rest, (nextKind rest).Ends → form.Final (nextKind (read ++ rest)) := by
  cases form with
  | inline =>
    obtain rfl := List.map_eq_nil_iff.mp written
    exact ⟨Rule.Reads.pure (), fun _ => id⟩
  | block =>
    obtain ⟨span, rfl⟩ := map_eq_singleton written
    have word : (Rule.keyword .endWord expected).Reads [⟨.keyword .endWord, span⟩]
        ⟨.keyword .endWord, span⟩ TokenKind.Ends := Rule.Reads.token ⟨.keyword .endWord, span⟩ _
    have closes : TokenKind.Closes (.keyword .endWord) := by simp
    exact ⟨word.map, fun _ _ => closes⟩

/-- A body with its end is read back. -/
theorem Node.ReadableBody.closed (readable : body.ReadableBody form) {read : List Token}
    (written : read.map Token.kind = form.opening ++ (body.written ++ form.closing)) :
    ∃ result : Node, result.Alike body ∧
      full.closedBody.Reads read (result, form) TokenKind.Ends := by
  rw [← List.append_assoc] at written
  obtain ⟨inner, last, rfl, same, closed⟩ := List.map_eq_append_iff.mp written
  obtain ⟨result, alike, reads⟩ := readable inner same
  obtain ⟨ending, meets⟩ := reads_bodyEnd .endWord closed
  have ended : (bodyEnd form .endWord >>= fun _ => pure (result, form) :
      Rule (Node × BodyForm)).Reads last (result, form) TokenKind.Ends :=
    ending.bind_nil (Rule.Reads.pure _)
  exact ⟨result, alike, reads.bind ended fun rest ends => (meets rest ends).stops⟩

end Bodies

section Loops

variable {span : Span} {name : String} {condition first bound body : Node} {step : Option Node}
  {form : BodyForm}

/-- A word is read back. -/
theorem reads_keyword (word : Keyword) (expected : Expectation) (span : Span) :
    (Rule.keyword word expected).Reads [⟨.keyword word, span⟩] ⟨.keyword word, span⟩
      fun _ => True :=
  Rule.Reads.token ⟨.keyword word, span⟩ expected

/-- An expression is read back before what ends a statement. -/
theorem Node.Readable.ended {node : Node} (readable : node.Readable) {read : List Token}
    (written : read.map Token.kind = node.written) :
    ∃ result : Node, result.Alike node ∧ full.expression.Reads read result TokenKind.Ends := by
  obtain ⟨result, alike, expression, _⟩ := readable.expression read written
  exact ⟨result, alike, expression.mono fun _ ends => ends.leaves _⟩

/-- A conditional loop is read back. -/
theorem readable_whileLoop (conditions : condition.Readable) (bodies : body.ReadableBody form) :
    (Node.whileLoop span condition body form).Readable := by
  refine Node.ReadableInside.readable rfl (.of_atom fun read written => ?_)
  simp only [Node.kinds, List.append_assoc, List.cons_append] at written
  obtain ⟨word, _, rfl, afterWord⟩ := map_eq_cons written
  obtain ⟨test, _, rfl, testSame, afterTest⟩ := List.map_eq_append_iff.mp afterWord
  obtain ⟨thenWord, rest, rfl, afterThen⟩ := map_eq_cons afterTest
  obtain ⟨testResult, testAlike, testReads⟩ := conditions.ended testSame
  obtain ⟨result, alike, reads⟩ := bodies.closed afterThen
  refine ⟨.whileLoop (testResult.span.through result.span) testResult result form,
    .whileLoop trivial testAlike alike, ?_, fun _ => by simp [TokenKind.StartsAtom]⟩
  have whole : full.whileLoop.Reads (test ++ ⟨.keyword .thenWord, thenWord⟩ :: rest)
      (.whileLoop (testResult.span.through result.span) testResult result form) TokenKind.Ends :=
    testReads.bind ((reads_keyword .thenWord .thenWord thenWord).bind reads.map fun _ _ => trivial)
      fun _ _ => .inl (by simp)
  exact whole

/-- The step of a counted loop is read back, and so is its absence. -/
theorem reads_step (steps : ∀ found ∈ step, found.Readable) {read : List Token}
    (written : read.map Token.kind = Node.writtenAfter [.keyword .stepWord] step) :
    ∃ result, Option.Rel Node.Alike result step ∧
      full.step.Reads read result TokenKind.Ends ∧
      ∀ rest, (nextKind rest).Ends → (nextKind (read ++ rest)).Leaves .logical := by
  cases step with
  | none =>
    obtain rfl := List.map_eq_nil_iff.mp written
    have absent : (Rule.token? (.keyword .stepWord)).Reads [] none TokenKind.Ends :=
      Rule.Reads.noToken fun _ ends => ends.ne
    exact ⟨none, .none, absent.bind_nil (Rule.Reads.pure _), fun _ ends => ends.leaves _⟩
  | some step =>
    obtain ⟨word, rest, rfl, same⟩ := map_eq_cons written
    obtain ⟨result, alike, reads⟩ := (steps step rfl).ended same
    have present : (Rule.token? (.keyword .stepWord)).Reads [⟨.keyword .stepWord, word⟩]
        (some ⟨.keyword .stepWord, word⟩) fun _ => True :=
      Rule.Reads.token? ⟨.keyword .stepWord, word⟩
    exact ⟨some result, .some alike, present.bind reads.map fun _ _ => trivial,
      fun _ _ => TokenKind.leaves_of_none (by simp) rfl _⟩

/-- A counted loop is read back. -/
theorem readable_forLoop (firsts : first.Readable) (bounds : bound.Readable)
    (steps : ∀ found ∈ step, found.Readable) (bodies : body.ReadableBody form) :
    (Node.forLoop span name first bound step body form).Readable := by
  refine Node.ReadableInside.readable rfl (.of_atom fun read written => ?_)
  simp only [Node.kinds, List.append_assoc, List.cons_append] at written
  -- The tokens of the header are cut off one part after the other.
  obtain ⟨word, _, rfl, afterWord⟩ := map_eq_cons written
  obtain ⟨nameSpan, _, rfl, afterName⟩ := map_eq_cons afterWord
  obtain ⟨sign, _, rfl, afterSign⟩ := map_eq_cons afterName
  obtain ⟨start, _, rfl, startSame, afterStart⟩ := List.map_eq_append_iff.mp afterSign
  obtain ⟨toWord, _, rfl, afterTo⟩ := map_eq_cons afterStart
  obtain ⟨stop, _, rfl, stopSame, afterStop⟩ := List.map_eq_append_iff.mp afterTo
  obtain ⟨stride, _, rfl, strideSame, afterStride⟩ := List.map_eq_append_iff.mp afterStop
  obtain ⟨thenWord, rest, rfl, afterThen⟩ := map_eq_cons afterStride
  obtain ⟨startResult, startAlike, startReads⟩ := firsts.ended startSame
  obtain ⟨stopResult, stopAlike, stopReads, _⟩ := bounds.expression stop stopSame
  obtain ⟨stepResult, stepAlike, stepReads, meets⟩ := reads_step steps strideSame
  obtain ⟨result, alike, reads⟩ := bodies.closed afterThen
  refine ⟨.forLoop (nameSpan.through result.span) name startResult stopResult stepResult result
    form, .forLoop trivial startAlike stopAlike stepAlike alike, ?_,
    fun _ => by simp [TokenKind.StartsAtom]⟩
  have identified : (Rule.identifier .identifier).Reads [⟨.identifier name, nameSpan⟩]
      (name, nameSpan) fun _ => True := Rule.Reads.identifier name nameSpan _
  have assigned : (Rule.symbol .assign .assign).Reads [⟨.symbol .assign, sign⟩]
      ⟨.symbol .assign, sign⟩ fun _ => True := Rule.Reads.token ⟨.symbol .assign, sign⟩ _
  -- The rule reads the same parts, and each may be followed by the word that starts the next.
  have whole : full.forLoop.Reads (⟨.identifier name, nameSpan⟩ :: ⟨.symbol .assign, sign⟩ ::
      (start ++ ⟨.keyword .toWord, toWord⟩ ::
        (stop ++ (stride ++ ⟨.keyword .thenWord, thenWord⟩ :: rest))))
      (.forLoop (nameSpan.through result.span) name startResult stopResult stepResult result form)
      TokenKind.Ends := by
    refine identified.bind (assigned.bind ?_ fun _ _ => trivial) fun _ _ => trivial
    refine startReads.bind ((reads_keyword .toWord .toWord toWord).bind ?_ fun _ _ => trivial)
      fun _ _ => .inl (by simp)
    refine stopReads.bind (stepReads.bind ?_ fun _ _ => .inl (by simp)) fun rest _ => ?_
    · exact (reads_keyword .thenWord .thenWord thenWord).bind reads.map fun _ _ => trivial
    · rw [List.append_assoc]
      exact meets _ (.inl (by simp))
  exact whole

end Loops

section Conditionals

/-- The choices that start with a branch that has been read. -/
def Grammar.choicesFrom (grammar : Grammar) (first : Branch) : Rule Choices := do
  let more ← Rule.many grammar.anotherBranch
  let last ← grammar.otherwise (more.getLast?.getD first).form
  return (first :: more).foldr Branch.before last

/-- A conditional is its first branch and the choices from there on. -/
theorem conditional_eq (word : Span) :
    full.conditional word = (do
      let first ← full.branch
      let choices ← full.choicesFrom first
      return .conditional (word.through (choices.lastBody?.getD word)) choices) := by
  simp only [conditional, choicesFrom, bind_assoc, pure_bind]

/-- Behind a branch there is another one, or what comes after the last one. -/
theorem choicesFrom_eq (first : Branch) :
    full.choicesFrom first = (do
      match ← full.anotherBranch with
      | none => return first.before (← full.otherwise first.form)
      | some next => return first.before (← full.choicesFrom next)) := by
  unfold choicesFrom
  conv_lhs => rw [Rule.many_eq consumes_anotherBranch rfl, bind_assoc]
  congr 1
  funext found
  cases found with
  | none => simp
  | some next => simp [List.getLast?_cons]

/-- What comes behind a branch is read back, and ends its body. -/
def Choices.ReadableRest (choices : Choices) : Prop :=
  ∀ (first : Branch) (read : List Token),
    read.map Token.kind = choices.kinds .elifWord first.form →
      ∃ result : Choices, result.Similar (fun _ _ => True) choices ∧
        (full.choicesFrom first).Reads read (first.before result) TokenKind.Ends ∧
        ∀ rest, (nextKind rest).Ends → first.form.Stops (nextKind (read ++ rest))

/-- Without the word for another branch, there is none. -/
theorem reads_noBranch : full.anotherBranch.Reads [] none (· ≠ .keyword .elifWord) :=
  (Rule.Reads.noToken fun _ => id).bind_nil (Rule.Reads.pure none)

/-- The end of the last branch is read back. -/
theorem readableRest_none : Choices.none.ReadableRest := by
  intro first read written
  obtain ⟨ending, meets⟩ := reads_bodyEnd .nextBranch written
  have absent : (Rule.token? (.keyword .elseWord)).Reads [] none (· ≠ .keyword .elseWord) :=
    Rule.Reads.noToken fun _ => id
  have last : (full.otherwise first.form).Reads read .none TokenKind.Ends :=
    absent.bind (ending.bind_nil (Rule.Reads.pure Choices.none)) fun rest ends =>
      (meets rest ends).ends.ne
  refine ⟨.none, .none, ?_, fun rest ends => (meets rest ends).stops⟩
  rw [choicesFrom_eq]
  exact reads_noBranch.bind last.map fun rest ends => (meets rest ends).ends.ne

/-- The body for all other cases is read back. -/
theorem readableRest_otherwise {body : Node} {form : BodyForm} (bodies : body.ReadableBody form) :
    (Choices.otherwise body form).ReadableRest := by
  intro first read written
  simp only [Choices.kinds, List.append_assoc, List.cons_append] at written
  obtain ⟨word, rest, rfl, afterWord⟩ := map_eq_cons written
  obtain ⟨result, alike, reads⟩ := bodies.closed afterWord
  have present : (Rule.token? (.keyword .elseWord)).Reads [⟨.keyword .elseWord, word⟩]
      (some ⟨.keyword .elseWord, word⟩) fun _ => True :=
    Rule.Reads.token? ⟨.keyword .elseWord, word⟩
  have last : (full.otherwise first.form).Reads (⟨.keyword .elseWord, word⟩ :: rest)
      (.otherwise result form) TokenKind.Ends := present.bind reads.map fun _ _ => trivial
  refine ⟨.otherwise result form, .otherwise alike, ?_, fun _ _ => ⟨⟨?_, ?_⟩, ?_⟩⟩
  · rw [choicesFrom_eq]
    exact reads_noBranch.bind last.map fun _ _ => by simp
  · exact TokenKind.leaves_of_none (by simp) rfl _
  · simp [TokenKind.StartsExpression, TokenKind.StartsAtom]
  · simp

/-- A condition with its body is read back. -/
theorem reads_branch {condition body : Node} {form : BodyForm} (conditions : condition.Readable)
    (bodies : body.ReadableBody form) {read : List Token} (written : read.map Token.kind =
      condition.written ++ .keyword .thenWord :: (form.opening ++ body.written)) :
    ∃ test result : Node, test.Alike condition ∧ result.Alike body ∧
      full.branch.Reads read ⟨test, result, form⟩ form.Stops := by
  obtain ⟨first, _, rfl, firstSame, afterFirst⟩ := List.map_eq_append_iff.mp written
  obtain ⟨thenWord, rest, rfl, afterThen⟩ := map_eq_cons afterFirst
  obtain ⟨test, testAlike, testReads⟩ := conditions.ended firstSame
  obtain ⟨result, alike, reads⟩ := bodies rest afterThen
  exact ⟨test, result, testAlike, alike, testReads.bind
    ((reads_keyword .thenWord .thenWord thenWord).bind reads.map fun _ _ => trivial)
    fun _ _ => .inl (by simp)⟩

/-- Another branch is read back with what comes behind it. -/
theorem readableRest_test {condition body : Node} {form : BodyForm} {others : Choices}
    (conditions : condition.Readable) (bodies : body.ReadableBody form)
    (behind : others.ReadableRest) : (Choices.test condition body form others).ReadableRest := by
  intro first read written
  have grouped : read.map Token.kind = .keyword .elifWord ::
      ((condition.written ++ .keyword .thenWord :: (form.opening ++ body.written)) ++
        others.kinds .elifWord form) := by
    simpa only [Choices.kinds, Node.written, List.append_assoc, List.cons_append] using written
  obtain ⟨word, _, rfl, afterWord⟩ := map_eq_cons grouped
  obtain ⟨one, rest, rfl, oneSame, restSame⟩ := List.map_eq_append_iff.mp afterWord
  obtain ⟨test, result, testAlike, alike, reads⟩ := reads_branch conditions bodies oneSame
  obtain ⟨others, othersAlike, othersRead, meets⟩ := behind ⟨test, result, form⟩ rest restSame
  have present : (Rule.token? (.keyword .elifWord)).Reads [⟨.keyword .elifWord, word⟩]
      (some ⟨.keyword .elifWord, word⟩) fun _ => True :=
    Rule.Reads.token? ⟨.keyword .elifWord, word⟩
  have another : full.anotherBranch.Reads (⟨.keyword .elifWord, word⟩ :: one)
      (some ⟨test, result, form⟩) form.Stops := present.bind reads.map fun _ _ => trivial
  refine ⟨.test test result form others, .test testAlike alike othersAlike, ?_,
    fun _ _ => ⟨⟨?_, ?_⟩, ?_⟩⟩
  · rw [choicesFrom_eq]
    exact another.bind othersRead.map meets
  · exact TokenKind.leaves_of_none (by simp) rfl _
  · simp [TokenKind.StartsExpression, TokenKind.StartsAtom]
  · simp

/-- A conditional is read back. -/
theorem readable_conditional {span : Span} {condition body : Node} {form : BodyForm}
    {others : Choices} (conditions : condition.Readable) (bodies : body.ReadableBody form)
    (behind : others.ReadableRest) :
    (Node.conditional span (.test condition body form others)).Readable := by
  refine Node.ReadableInside.readable rfl (.of_atom fun read written => ?_)
  have grouped : read.map Token.kind = .keyword .ifWord ::
      ((condition.written ++ .keyword .thenWord :: (form.opening ++ body.written)) ++
        others.kinds .elifWord form) := by
    simpa only [Node.kinds, Choices.kinds, Node.written, List.append_assoc, List.cons_append]
      using written
  obtain ⟨word, _, rfl, afterWord⟩ := map_eq_cons grouped
  obtain ⟨one, rest, rfl, oneSame, restSame⟩ := List.map_eq_append_iff.mp afterWord
  obtain ⟨test, result, testAlike, alike, reads⟩ := reads_branch conditions bodies oneSame
  obtain ⟨others, othersAlike, othersRead, meets⟩ := behind ⟨test, result, form⟩ rest restSame
  have whole : (full.conditional word).Reads (one ++ rest)
      (.conditional (word.through ((Choices.test test result form others).lastBody?.getD word))
        (.test test result form others)) TokenKind.Ends := by
    rw [conditional_eq]
    exact reads.bind othersRead.map meets
  exact ⟨_, .conditional trivial (.test testAlike alike othersAlike), whole,
    fun _ => by simp [TokenKind.StartsAtom]⟩

end Conditionals

end Scriptlet
