import Scriptlet.Proofs.Syntax.Pieces
import Scriptlet.Proofs.Syntax.Soundness
import Scriptlet.Proofs.Syntax.Taking

/-!
The parser gives constructs the ranges that they were read from. Whatever a rule takes from the
tokens, the pieces of its result are laid out in it.
-/

namespace Scriptlet

/-- Whatever tokens a rule takes, its result lies in them as a piece. -/
abbrev Rule.Lays (rule : Rule Node) : Prop :=
  rule.Takes fun read node => Laid read [.node node]

/-- Whatever tokens a rule takes behind another one, its result lies in all of them as a piece. -/
abbrev Rule.LaysBehind (token : Token) (rule : Rule Node) : Prop :=
  rule.Takes fun read node => Laid (token :: read) [.node node]

namespace Rule

variable {rule : Rule Node} {token : Token} {node : Node} {rest left : List Token}

/-- A token in front of what is read need not be a part of it. -/
theorem Lays.skip (lays : rule.Lays) (token : Token) : rule.LaysBehind token :=
  lays.imp fun _ _ => .skip

/-- What a rule reads behind a token is read from there on. -/
theorem LaysBehind.after (lays : rule.LaysBehind token) (parsed : rule rest = .ok (node, left)) :
    ∃ read, token :: rest = read ++ left ∧ Laid read [.node node] := by
  obtain ⟨read, rfl, laid⟩ := lays _ _ _ parsed
  exact ⟨token :: read, rfl, laid⟩

/-- Operands with operators between them, grouped from the left. -/
theorem Lays.operations {first later : Rule Node} (firsts : first.Lays) (laters : later.Lays)
    (operator? : TokenKind → Option BinaryOperator) :
    Rule.Lays (do
      let operand ← first
      let operations ← many (operation later operator?)
      return operations.foldl (fun left (operator, right) => .joined operator left right)
        operand) := by
  refine firsts.bind fun front operand operands => ?_
  -- Whatever stands to the left, each operation makes one operand of it.
  have grouped : (many (operation later operator?)).Takes fun read operations =>
      ∀ front left, Laid front [.node left] → Laid (front ++ read) [.node
        (operations.foldl (fun left (operator, right) => .joined operator left right) left)] := by
    refine (Takes.operation laters operator?).many ?_ ?_ ?_
    · intro front left lefts
      rwa [List.append_nil]
    · rintro _ rfl front left lefts
      rwa [List.append_nil]
    · rintro _ ⟨operator, right⟩ rear operations ⟨sign, read, rfl, -, rights⟩ others front left
        lefts
      rw [← List.append_assoc]
      exact others _ (.joined operator left right) <|
        .around (.node left) (.node right) (lefts.append (.skip rights)) rfl rfl rfl rfl
  exact grouped.map fun read operations others => others front operand operands

end Rule

/-- The last body of choices is the last construct inside of them. -/
theorem Choices.map_getLast?_children (choices : Choices) :
    choices.children.getLast?.map Node.span = choices.lastBody? := by
  -- The induction goes along the choices.
  induction choices using Choices.lastBody?.induct with
  | case1 => rfl
  | case2 => rfl
  | case3 condition body form rest ih =>
    rw [children, lastBody?, ← ih, List.getLast?_cons_cons, List.getLast?_cons]
    cases rest.children.getLast? <;> rfl

namespace Grammar

/-- Grammars whose rules lay out what they read. -/
structure Lays (grammar : Grammar) : Prop where
  expression : grammar.expression.Lays
  comparison : grammar.comparison.Lays
  factor : grammar.factor.Lays
  statement : grammar.statement.Lays
  statements : grammar.statements.Lays

namespace Lays

variable {grammar : Grammar}

/-- Expressions up to a closing symbol. -/
theorem delimited (lays : grammar.Lays) (closing : Symbol) (first next : Expectation) :
    (grammar.delimited closing first next).Takes fun read found =>
      ∃ close : Token, close.span = found.2 ∧ Laid read (found.1.map .node ++ [.token close]) := by
  refine (Rule.Takes.token? _).bind fun front found ⟨same, _⟩ => ?_
  subst same
  cases found with
  | some close => exact .pure ⟨close, rfl, .token .nil⟩
  | none =>
    refine (lays.expression.orExpected first).bind fun start item items => ?_
    have others : (Rule.many (afterComma grammar.expression)).Takes fun read more =>
        Laid read (more.map .node) := by
      refine lays.expression.behind.many .nil ?_ ?_
      · rintro _ rfl
        exact .nil
      · rintro _ node rear nodes ⟨comma, read, rfl, -, fine⟩ more
        exact .skip (fine.append more)
    refine others.bind fun rear more moreItems => ?_
    refine (Rule.Takes.token _ next).map fun stop close ⟨same, _⟩ => ?_
    subst same
    exact ⟨close, rfl, items.append (moreItems.append (.token .nil))⟩

/-- A body. -/
theorem body (lays : grammar.Lays) :
    grammar.body.Takes fun read found => Laid read [.node found.1] := by
  refine (Rule.Takes.token? _).bind fun front found ⟨same, _⟩ => ?_
  subst same
  cases found with
  | some line => exact lays.statements.map fun read node fine => .skip fine
  | none => exact lays.statement.map fun read node fine => fine

/-- The end of a body takes tokens, or none. -/
theorem bodyEnd (form : BodyForm) (expected : Expectation) :
    (Grammar.bodyEnd form expected).Takes fun _ _ => True := by
  cases form with
  | inline => exact .pure trivial
  | block => exact (Rule.Takes.token _ expected).map fun _ _ _ => trivial

/-- A body with its end. -/
theorem closedBody (lays : grammar.Lays) :
    grammar.closedBody.Takes fun read found => Laid read [.node found.1] := by
  refine lays.body.bind fun read found fine => ?_
  exact (bodyEnd found.2 .endWord).map fun stop _ _ => fine.append (.skipped stop)

/-- One condition and its body. -/
theorem branch (lays : grammar.Lays) : grammar.branch.Takes fun read branch =>
    Laid read [.node branch.condition, .node branch.body] := by
  refine lays.expression.bind fun front condition conditions => ?_
  refine (Rule.Takes.token _ _).bind fun guard word ⟨same, _⟩ => ?_
  subst same
  exact lays.body.map fun rear found bodies => conditions.append (.skip bodies)

/-- What comes after the last branch. -/
theorem otherwise (lays : grammar.Lays) (last : BodyForm) :
    (grammar.otherwise last).Takes fun read rest => Laid read (rest.children.map .node) := by
  refine (Rule.Takes.token? _).bind fun front found ⟨same, _⟩ => ?_
  subst same
  cases found with
  | some word => exact lays.closedBody.map fun read found fine => .skip fine
  | none => exact (bodyEnd last .nextBranch).map fun stop _ _ => .skipped stop

/-- A conditional, around its last body. -/
theorem conditional (lays : grammar.Lays) (word : Span) :
    (grammar.conditional word).LaysBehind ⟨.keyword .ifWord, word⟩ := by
  refine lays.branch.bind fun start first firsts => ?_
  -- What comes behind the last branch is laid out behind all others.
  have others : (Rule.many grammar.anotherBranch).Takes fun read more =>
      ∀ rear last, Laid rear (last.children.map .node) →
        Laid (read ++ rear) ((more.foldr Branch.before last).children.map .node) := by
    refine lays.branch.behind.many ?_ ?_ ?_
    · exact fun rear last rest => rest
    · rintro _ rfl rear last rest
      exact rest
    · rintro _ branch middle more ⟨word, read, rfl, -, fine⟩ others rear last rest
      rw [List.append_assoc]
      exact .skip (fine.append (others rear last rest))
  refine others.bind fun middle more moreBranches => ?_
  refine (lays.otherwise _).map fun rear last rest => ?_
  generalize whole : (first :: more).foldr Branch.before last = choices
  have laid : Laid (start ++ (middle ++ rear)) (choices.children.map .node) :=
    whole ▸ firsts.append (moreBranches rear last rest)
  obtain ⟨final, tail⟩ : ∃ final, choices.children.getLast? = some final := by
    rw [← whole]
    exact ⟨_, List.getLast?_cons⟩
  have stop : choices.lastBody? = some final.span := by
    rw [← choices.map_getLast?_children, tail]
    rfl
  refine .around (.token ⟨_, word⟩) (.node final) (.token laid) rfl ?_ ?_ ?_
  · simp [List.getLast?_cons, tail]
  · simp [stop, Node.span, Piece.span]
  · simp [Node.children, List.filterMap_cons]

/-- The step of a counted loop, if there is one. -/
theorem step (lays : grammar.Lays) :
    grammar.step.Takes fun read found => Laid read (found.toList.map .node) := by
  refine (Rule.Takes.token? _).bind fun front found ⟨same, _⟩ => ?_
  subst same
  cases found with
  | none => exact .pure .nil
  | some word => exact lays.expression.map fun read node fine => .skip fine

/-- A counted loop, from its name to its body. -/
theorem forLoop (lays : grammar.Lays) : grammar.forLoop.Lays := by
  refine (Rule.Takes.identifier _).bind fun naming named sameName => ?_
  refine (Rule.Takes.token _ _).bind fun assigning _ ⟨sameAssign, _⟩ => ?_
  refine lays.expression.bind fun start first firsts => ?_
  refine (Rule.Takes.token _ _).bind fun leading _ ⟨sameTo, _⟩ => ?_
  refine lays.expression.bind fun stop bound bounds => ?_
  refine lays.step.bind fun middle step stepped => ?_
  refine (Rule.Takes.token _ _).bind fun guarding _ ⟨sameThen, _⟩ => ?_
  refine lays.closedBody.map fun rear found bodies => ?_
  subst sameName sameAssign sameTo sameThen
  refine .around (.token ⟨_, named.2⟩) (.node found.1) (.token (.skip (firsts.append
    (.skip (bounds.append (stepped.append (.skip bodies))))))) rfl ?_ rfl ?_
  · simp [List.getLast?_cons]
  · simp [Node.children, List.filterMap_cons]

/-- A conditional loop, from its condition to its body. -/
theorem whileLoop (lays : grammar.Lays) : grammar.whileLoop.Lays := by
  refine lays.expression.bind fun front condition conditions => ?_
  refine (Rule.Takes.token _ _).bind fun guarding word ⟨same, _⟩ => ?_
  refine lays.closedBody.map fun rear found bodies => ?_
  subst same
  exact .around (.node condition) (.node found.1) (conditions.append (.skip bodies)) rfl rfl rfl rfl

/-- The body of a function, up to the end of the function. -/
theorem functionBody (lays : grammar.Lays) (word : Token) :
    grammar.functionBody.Takes fun read found => ∀ head name parameters,
      Laid (word :: (head ++ read))
        [.node (.function (word.span.through found.2.2) name parameters found.1 found.2.1)] := by
  refine (Rule.Takes.token? _).bind fun front found ⟨same, _⟩ => ?_
  subst same
  cases found with
  | some arrow =>
    refine lays.expression.map fun read node fine head name parameters => ?_
    have laid : Laid (head ++ arrow :: read) [.node node] := (Laid.skipped head).append (.skip fine)
    exact .around (.token word) (.node node) (.token laid) rfl rfl rfl rfl
  | none =>
    refine (Rule.Takes.token _ _).bind fun line _ ⟨sameLine, _⟩ => ?_
    refine lays.statements.bind fun read node fine => ?_
    refine (Rule.Takes.token _ _).map fun stop close ⟨sameStop, _⟩ head name parameters => ?_
    subst sameLine sameStop
    exact .around (.token word) (.token close)
      (.token ((Laid.skipped head).append (.skip (fine.append (.token .nil))))) rfl rfl rfl rfl

/-- A function, from its word to its end. -/
theorem function (lays : grammar.Lays) (word : Span) :
    (grammar.function word).LaysBehind ⟨.keyword .funWord, word⟩ := by
  refine Sound.functionName.takes.bind fun front name _ => ?_
  refine Sound.parameters.takes.bind fun middle names _ => ?_
  refine (lays.functionBody ⟨.keyword .funWord, word⟩).map fun rear found fine => ?_
  rw [← List.append_assoc]
  exact fine (front ++ middle) name names

/-- An expression between parentheses, which are no part of its range. -/
theorem parenthesised (lays : grammar.Lays) : grammar.parenthesised.Lays := by
  refine lays.expression.bind fun read inner fine => ?_
  exact (Rule.Takes.token _ _).map fun stop _ _ => fine.append (.skipped stop)

/-- A list, from one bracket to the other. -/
theorem list (lays : grammar.Lays) (bracket : Span) :
    (grammar.list bracket).LaysBehind ⟨.symbol .leftBracket, bracket⟩ := by
  refine (lays.delimited _ _ _).map fun read found ⟨close, same, fine⟩ => ?_
  refine .around (.token ⟨_, bracket⟩) (.token close) (.token fine) rfl ?_ ?_ ?_
  · simp [List.getLast?_cons]
  · rw [← same]
    rfl
  · simp [Node.children, List.filterMap_cons]

/-- An atom. -/
theorem atom (lays : grammar.Lays) : grammar.atom.Lays := by
  intro tokens node rest parsed
  have leaf (token : Token) (node : Node) (range : node.span = token.span)
      (inner : node.children = []) : Laid [token] [.node node] :=
    .around (.token token) (.token token) (.token .nil) rfl rfl range inner
  unfold Grammar.atom at parsed
  split at parsed
  · cases parsed
    exact ⟨[_], rfl, leaf _ _ rfl rfl⟩
  · cases parsed
    exact ⟨[_], rfl, leaf _ _ rfl rfl⟩
  · cases parsed
    exact ⟨[_], rfl, leaf _ _ rfl rfl⟩
  · cases parsed
    exact ⟨[_], rfl, leaf _ _ rfl rfl⟩
  · exact (lays.parenthesised.skip _).after parsed
  · exact (lays.list _).after parsed
  · exact (lays.conditional _).after parsed
  · exact (lays.forLoop.skip _).after parsed
  · exact (lays.whileLoop.skip _).after parsed
  · exact (lays.function _).after parsed
  · cases parsed

/-- An atom, called again and again: each call ends with its arguments. -/
theorem call (lays : grammar.Lays) : grammar.call.Lays := by
  refine lays.atom.bind fun front first fine => ?_
  -- Whatever is called, each list of arguments makes one callee of it.
  have calls : (Rule.many grammar.arguments).Takes fun read calls =>
      ∀ front callee, Laid front [.node callee] →
        Laid (front ++ read) [.node (calls.foldl (fun callee found =>
          .call (callee.span.through found.2) callee found.1) callee)] := by
    refine (lays.delimited _ _ _).behind.many ?_ ?_ ?_
    · intro front callee callees
      rwa [List.append_nil]
    · rintro _ rfl front callee callees
      rwa [List.append_nil]
    · rintro _ ⟨arguments, _⟩ rear calls ⟨_, read, rfl, -, close, rfl, fine⟩ others front callee
        callees
      rw [← List.append_assoc]
      refine others _ (.call _ callee arguments) ?_
      refine .around (.node callee) (.token close) (callees.append (.skip fine)) rfl ?_ rfl ?_
      · simp [List.getLast?_cons]
      · simp [Node.children, List.filterMap_cons]
  exact calls.map fun rear calls others => others front first fine

/-- A call, raised to factors. -/
theorem power (lays : grammar.Lays) : grammar.power.Lays :=
  .operations lays.call lays.factor _

/-- An operator with its operand. -/
theorem prefixed (operator : UnaryOperator) (sign : Token) {operand : Rule Node}
    (operands : operand.Lays) : (Grammar.prefixed operator sign.span operand).LaysBehind sign :=
  operands.map fun _ operand fine =>
    .around (.token sign) (.node operand) (.token fine) rfl rfl rfl rfl

/-- A power, or a factor with a sign. -/
theorem factorRule (lays : grammar.Lays) : grammar.factorRule.Lays := by
  intro tokens node rest parsed
  unfold Grammar.factorRule at parsed
  split at parsed
  · exact (prefixed .negate ⟨_, _⟩ lays.factor).after parsed
  · exact (prefixed .plus ⟨_, _⟩ lays.factor).after parsed
  · exact lays.power _ _ _ parsed

/-- Factors between signs of multiplication. -/
theorem multiplicative (lays : grammar.Lays) : grammar.multiplicative.Lays :=
  .operations lays.factorRule lays.factorRule _

/-- Products between signs of addition. -/
theorem additive (lays : grammar.Lays) : grammar.additive.Lays :=
  .operations lays.multiplicative lays.multiplicative _

/-- Sums between comparisons. -/
theorem compared (lays : grammar.Lays) : grammar.compared.Lays :=
  .operations lays.additive lays.additive _

/-- A comparison, or the negation of one. -/
theorem comparisonRule (lays : grammar.Lays) : grammar.comparisonRule.Lays := by
  intro tokens node rest parsed
  unfold Grammar.comparisonRule at parsed
  split at parsed
  · exact (prefixed .not ⟨_, _⟩ lays.comparison).after parsed
  · exact lays.compared.orExpected _ _ _ _ parsed

/-- Comparisons between logical operators. -/
theorem logical (lays : grammar.Lays) : grammar.logical.Lays :=
  .operations lays.comparisonRule lays.comparisonRule _

/-- An assignment, from its name to its value. -/
theorem assignment (lays : grammar.Lays) : grammar.assignment.Lays := by
  refine (Rule.Takes.identifier _).bind fun naming named sameName => ?_
  refine (Rule.Takes.token _ _).bind fun assigning _ ⟨sameAssign, _⟩ => ?_
  refine lays.expression.map fun read value fine => ?_
  subst sameName sameAssign
  exact .around (.token ⟨_, named.2⟩) (.node value) (.token (.skip fine)) rfl rfl rfl rfl

/-- An assignment, or operators and operands. -/
theorem expressionRule (lays : grammar.Lays) : grammar.expressionRule.Lays := by
  intro tokens node rest parsed
  unfold Grammar.expressionRule at parsed
  split at parsed
  · exact (lays.assignment.skip _).after parsed
  · exact lays.logical.orExpected _ _ _ _ parsed

/-- What a function returns, behind its word, which may stand alone. -/
theorem returning (lays : grammar.Lays) (word : Span) :
    (grammar.returning word).LaysBehind ⟨.keyword .returnWord, word⟩ := by
  refine lays.expression.optional.map fun read value fine => ?_
  cases value with
  | none =>
    obtain rfl : read = [] := fine
    exact .around (.token ⟨_, word⟩) (.token ⟨_, word⟩) (.token .nil) rfl rfl rfl rfl
  | some value => exact .around (.token ⟨_, word⟩) (.node value) (.token fine) rfl rfl rfl rfl

/-- A signal, or an expression. -/
theorem statementRule (lays : grammar.Lays) : grammar.statementRule.Lays := by
  intro tokens node rest parsed
  unfold Grammar.statementRule at parsed
  split at parsed
  · exact (lays.returning _).after parsed
  · cases parsed
    exact ⟨[_], rfl, .around (.token _) (.token _) (.token .nil) rfl rfl rfl rfl⟩
  · cases parsed
    exact ⟨[_], rfl, .around (.token _) (.token _) (.token .nil) rfl rfl rfl rfl⟩
  · exact lays.expressionRule.orExpected _ _ _ _ parsed

/-- Statements between newlines, from the first to the last. -/
theorem statementsRule (lays : grammar.Lays) : grammar.statementsRule.Lays := by
  refine Rule.Takes.newlines.bind fun start _ _ => ?_
  refine lays.statementRule.bind fun front first fine => ?_
  have another : grammar.anotherStatement.Takes fun read found =>
      found.elim True fun node => Laid read [.node node] := by
    refine Rule.Takes.newlines.bind fun lines found _ => ?_
    split
    · refine lays.statementRule.optional.imp fun read found fine => ?_
      cases found with
      | none => trivial
      | some node => exact (Laid.skipped lines).append fine
    · exact .pure trivial
  have others : (Rule.many grammar.anotherStatement).Takes fun read nodes =>
      Laid read (nodes.map .node) :=
    another.many .nil (fun read _ => .skipped read) fun _ _ _ _ fine more => fine.append more
  refine others.map fun rear more fines => ?_
  refine .around (.node first) (.node (more.getLast?.getD first))
    ((Laid.skipped start).append (fine.append fines)) rfl ?_ rfl ?_
  · simp [List.getLast?_cons]
  · simp [Node.children]

/-- Rules that nest one level deeper. -/
theorem nested (depth : Nat) : (Grammar.nested depth).Lays := by
  -- The induction is on how deep rules may nest.
  induction depth with
  | zero => exact ⟨.fail _, .fail _, .fail _, .fail _, .fail _⟩
  | succ depth ih =>
    exact ⟨ih.expressionRule, ih.comparisonRule, ih.factorRule, ih.statementRule, ih.statementsRule⟩

end Lays

end Grammar

/-- The tokens of a source but the end of its text are in order. -/
theorem Source.inOrder_tokens {source : Source} {tokens : List Token}
    (cut : source.tokens = .ok tokens) : source.InOrder tokens.dropLast := by
  obtain ⟨body, finish, rfl, -, -, -, partition⟩ := Source.tokens_partition cut
  rw [List.dropLast_concat]
  exact ⟨fun token member => ⟨(partition.munches token member).origin,
    (partition.munches token member).nonempty⟩, partition.ordered⟩

/--
The ranges of a program are well nested. Every construct of it reaches from the start of a token to
the end of one, and is not empty; it is around the constructs right inside of it, and of these each
one ends before the next one starts.
-/
theorem parse_wellSpanned {source : Source} {tokens : List Token} {program : Node}
    (cut : source.tokens = .ok tokens) (parsed : parse tokens = .ok program) :
    ∀ node ∈ program.all, node.WellSpanned source tokens.dropLast := by
  have whole : Rule.Takes (fun read node => ∃ body stop, read = body ++ [stop] ∧
      stop.kind = .endOfText ∧ Laid body [.node node]) (do
        let program ← (Grammar.nested tokens.length).statements
        let _ ← Rule.token .endOfText .nothing
        return program) := by
    refine (Grammar.Lays.nested tokens.length).statements.bind fun body node fine => ?_
    refine (Rule.Takes.token _ _).map fun stop token ⟨same, kind⟩ => ?_
    exact ⟨body, token, by rw [same], kind, fine⟩
  have laid : Laid tokens.dropLast [.node program] := by
    unfold parse at parsed
    split at parsed
    · rename_i rest found
      cases parsed
      obtain ⟨_, split, body, stop, rfl, kind, laid⟩ := whole _ _ _ found
      obtain rfl : rest = [] :=
        (tokensFrom_endsOnce _ cut).rest_eq split (by simp [kind])
      rw [split, List.append_nil, List.dropLast_concat]
      exact laid
    · cases parsed
  exact (laid.fine (Source.inOrder_tokens cut)).nodes program List.mem_cons_self

/-- A loop that calls what a call answers with a list in parentheses. -/
def looping : Source :=
  { name := "looping", text := "WHILE a THEN f(a)(([-1])) # no more\n" }

/-- The loop starts behind its first word, and the list is without the parentheses around it. -/
theorem parse_wellSpanned_looping :
    ∃ tokens program, looping.tokens = .ok tokens ∧ parse tokens = .ok program ∧
      (program.all.map fun node => (node.span.start.index, node.span.stop.index)) = [(6, 25),
        (6, 25), (6, 7), (13, 25), (13, 17), (13, 14), (15, 16), (19, 23), (20, 22), (21, 22)] ∧
      ∀ node ∈ program.all, node.WellSpanned looping tokens.dropLast := by
  have ranges : (looping.tokens.bind parse).toOption.map (fun program =>
      program.all.map fun node => (node.span.start.index, node.span.stop.index)) = some [(6, 25),
        (6, 25), (6, 7), (13, 25), (13, 17), (13, 14), (15, 16), (19, 23), (20, 22), (21, 22)] := by
    decide +kernel
  cases cut : looping.tokens with
  | error error => simp [cut, Except.bind, Except.toOption] at ranges
  | ok tokens =>
    cases parsed : parse tokens with
    | error error => simp [cut, parsed, Except.bind, Except.toOption] at ranges
    | ok program =>
      refine ⟨tokens, program, rfl, parsed, ?_, parse_wellSpanned cut parsed⟩
      simpa [cut, parsed, Except.bind, Except.toOption] using ranges

end Scriptlet
