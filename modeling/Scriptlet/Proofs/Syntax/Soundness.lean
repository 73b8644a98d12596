import Scriptlet.Proofs.Syntax.Derivation
import Scriptlet.Proofs.Syntax.FirstFault
import Scriptlet.Proofs.Syntax.Taking

/-! The parser accepts phrases of the grammar only, and answers the trees that they stand for. -/

namespace Scriptlet

namespace Rule

variable {α β : Type}

/-- What a rule reads stands for its result. -/
def Sound (derives : List TokenKind → α → Prop) (rule : Rule α) : Prop :=
  ∀ tokens result rest, rule tokens = .ok (result, rest) →
    ∃ read, tokens = read ++ rest ∧ derives (read.map Token.kind) result

/-- What stands for a result that may be missing. -/
def Maybe (absent : List TokenKind → Prop) (present : List TokenKind → α → Prop)
    (kinds : List TokenKind) : Option α → Prop
  | none => absent kinds
  | some result => present kinds result

variable {derives : List TokenKind → α → Prop} {derives' : List TokenKind → β → Prop}

namespace Sound

/-- Readings are about the kinds of the tokens that a rule takes. -/
theorem takes {rule : Rule α} (sound : rule.Sound derives) :
    rule.Takes fun read result => derives (read.map Token.kind) result :=
  sound

/-- A rule that reads nothing. -/
theorem pure {result : α} (fine : derives [] result) : Rule.Sound derives (pure result) :=
  Takes.pure fine

/-- Two rules in a row read in a row. -/
theorem bind {rule : Rule α} {follow : α → Rule β} (sound : rule.Sound derives)
    (next : ∀ front result, derives front result →
      (follow result).Sound fun rear outcome => derives' (front ++ rear) outcome) :
    (rule >>= follow).Sound derives' :=
  sound.takes.bind fun front result fine =>
    (next _ result fine).takes.imp fun rear outcome done => by rwa [List.map_append]

/-- A rule whose readings stand for its results in weaker terms. -/
theorem imp {rule : Rule α} {weaker : List TokenKind → α → Prop} (sound : rule.Sound derives)
    (weaken : ∀ kinds result, derives kinds result → weaker kinds result) : rule.Sound weaker :=
  sound.takes.imp fun read result => weaken (read.map Token.kind) result

/-- A rule that fails reads nothing. -/
theorem fail (expected : Expectation) : (Rule.fail expected).Sound derives :=
  Takes.fail expected

/-- What is read behind a first token. -/
theorem after {rule : Rule α} {result : α} {rest left : List Token} (token : Token)
    (sound : rule.Sound fun kinds result => derives (token.kind :: kinds) result)
    (parsed : rule rest = .ok (result, left)) :
    ∃ read, token :: rest = read ++ left ∧ derives (read.map Token.kind) result := by
  obtain ⟨read, rfl, fine⟩ := sound _ _ _ parsed
  exact ⟨token :: read, rfl, fine⟩

/-- One token of a kind. -/
theorem token (kind : TokenKind) (expected : Expectation) :
    (Rule.token kind expected).Sound fun kinds _ => kinds = [kind] := by
  refine (Takes.token kind expected).imp ?_
  rintro _ token ⟨rfl, rfl⟩
  rfl

/-- One identifier. -/
theorem identifier (expected : Expectation) :
    (Rule.identifier expected).Sound fun kinds named => kinds = [.identifier named.1] := by
  refine (Takes.identifier expected).imp ?_
  rintro _ named rfl
  rfl

/-- A token of a kind, if it comes next. -/
theorem token? (kind : TokenKind) :
    (Rule.token? kind).Sound fun kinds found => kinds = (found.map fun _ => kind).toList := by
  refine (Takes.token? kind).imp ?_
  rintro _ found ⟨rfl, kinds⟩
  cases found with
  | none => rfl
  | some token => exact congrArg (· :: []) (kinds token rfl)

/-- Newlines, and whether there are any. -/
theorem newlines : Rule.newlines.Sound fun kinds found =>
    ∃ count, kinds = List.replicate count .newline ∧ (found = true → count ≠ 0) := by
  refine Takes.newlines.imp fun read found ⟨each, taken⟩ => ⟨read.length, ?_, fun present => ?_⟩
  · exact List.eq_replicate_iff.mpr ⟨List.length_map _, List.forall_mem_map.mpr each⟩
  · exact List.length_eq_zero_iff.not.mpr (taken present)

/-- A better description of a failure. -/
theorem orExpected {rule : Rule α} (sound : rule.Sound derives) (expected : Expectation) :
    (rule.orExpected expected).Sound derives :=
  sound.takes.orExpected expected

/-- A rule that takes nothing if its result is missing. -/
theorem of_takes {rule : Rule (Option α)} {fits : List Token → α → Prop}
    (takes : rule.Takes fun read found => found.elim (read = []) (fits read))
    (present : ∀ read result, fits read result → derives (read.map Token.kind) result) :
    rule.Sound (Maybe (· = []) derives) := by
  refine takes.imp fun read found fine => ?_
  cases found with
  | none => exact List.map_eq_nil_iff.mpr fine
  | some result => exact present read result fine

/-- A rule that may be absent. -/
theorem optional {rule : Rule α} (sound : rule.Sound derives) :
    rule.optional.Sound (Maybe (· = []) derives) :=
  of_takes sound.takes.optional fun _ _ => id

/-- What is read again and again. -/
theorem many {item : Rule (Option α)} {absent : List TokenKind → Prop}
    {rows : List TokenKind → List α → Prop} (sound : item.Sound (Maybe absent derives))
    (stop : rows [] []) (last : ∀ kinds, absent kinds → rows kinds [])
    (more : ∀ front result rear results, derives front result → rows rear results →
      rows (front ++ rear) (result :: results)) : (Rule.many item).Sound rows := by
  have items : item.Takes fun read found => found.elim (absent (read.map Token.kind))
      (derives (read.map Token.kind)) := by
    refine sound.takes.imp fun read found fine => ?_
    cases found <;> exact fine
  refine items.many stop (fun read => last _) fun front result rear results fine others => ?_
  rw [List.map_append]
  exact more _ result _ results fine others

/-- What stands behind a token of a kind. -/
def Behind (kind : TokenKind) (derives : List TokenKind → α → Prop) (kinds : List TokenKind)
    (result : α) : Prop :=
  ∃ rest, kinds = kind :: rest ∧ derives rest result

/-- An item behind a token of a kind, if that comes next. -/
theorem behind {item : Rule α} {kind : TokenKind} (sound : item.Sound derives) :
    Rule.Sound (Maybe (· = []) (Behind kind derives)) (do
      match ← Rule.token? kind with
      | none => return none
      | some _ => return some (← item)) := by
  refine of_takes sound.takes.behind ?_
  rintro _ result ⟨token, rest, rfl, rfl, fine⟩
  exact ⟨_, rfl, fine⟩

/-- A token that stands for an operator of a level is how the operator is written. -/
theorem operatorAt?_eq_some {level : Level} {kind : TokenKind} {operator : BinaryOperator}
    (found : kind.operatorAt? level = some operator) :
    kind = operator.kind ∧ operator ∈ level.operators := by
  obtain ⟨known, same⟩ := Option.filter_eq_some_iff.mp found
  obtain rfl : operator.level = level := by simpa using same
  constructor
  · unfold TokenKind.operator? at known
    split at known <;> cases known <;> rfl
  · cases operator <;> decide

/-- An operator of a level and the operand behind it. -/
def Operated (level : Level) (derives : List TokenKind → Node → Prop) (kinds : List TokenKind)
    (operation : BinaryOperator × Node) : Prop :=
  operation.1 ∈ level.operators ∧ Behind operation.1.kind derives kinds operation.2

/-- An operator of a level and the operand behind it, if an operator comes next. -/
theorem operation {operand : Rule Node} {derives : List TokenKind → Node → Prop}
    (sound : operand.Sound derives) (level : Level) :
    (Rule.operation operand (TokenKind.operatorAt? level)).Sound
      (Maybe (· = []) (Operated level derives)) := by
  refine of_takes (sound.takes.operation (TokenKind.operatorAt? level)) ?_
  rintro _ next ⟨token, rest, rfl, present, fine⟩
  obtain ⟨written, known⟩ := operatorAt?_eq_some present
  exact ⟨known, _, congrArg (· :: _) written, fine⟩

/-- Operands with operators of a level between them, grouped from the left. -/
theorem operations {first later : Rule Node} (level : Level)
    (firsts : first.Sound (Derives level.first)) (laters : later.Sound (Derives level.later)) :
    Rule.Sound (Derives (.operations level)) (do
      let operand ← first
      let operations ← Rule.many (Rule.operation later (TokenKind.operatorAt? level))
      return operations.foldl (fun left (operator, right) => .joined operator left right)
        operand) := by
  refine firsts.bind fun front operand fine => ?_
  -- Whatever stands to the left, each operation makes one operand of it.
  have grouped : (Rule.many (Rule.operation later (TokenKind.operatorAt? level))).Sound
      fun kinds operations => ∀ front left, Derives (.operations level) front left →
        Derives (.operations level) (front ++ kinds)
          (operations.foldl (fun left (operator, right) => .joined operator left right) left) := by
    refine (laters.operation level).many ?_ ?_ ?_
    · exact fun front left lefts => by simpa using lefts
    · rintro kinds rfl front left lefts
      simpa using lefts
    · rintro _ ⟨operator, right⟩ rear operations ⟨known, rest, rfl, rights⟩ others front left lefts
      simpa using others _ (.joined operator left right) (.next lefts known rights)
  refine grouped.bind fun rear operations others => .pure ?_
  simpa using others front operand (.first fine)

end Sound

end Rule

namespace Grammar

open Rule (Maybe)
open Rule.Sound (Behind)

/-- Grammars whose rules read phrases only. -/
structure Sound (grammar : Grammar) : Prop where
  expression : grammar.expression.Sound (Derives .expression)
  comparison : grammar.comparison.Sound (Derives .comparison)
  factor : grammar.factor.Sound (Derives .factor)
  statement : grammar.statement.Sound (Derives .statement)
  statements : grammar.statements.Sound (Derives .statements)

namespace Sound

variable {grammar : Grammar}

/-- Expressions up to a closing symbol. -/
theorem delimited (sound : grammar.Sound) (closing : Symbol) (first next : Expectation) :
    (grammar.delimited closing first next).Sound fun kinds found =>
      ∃ inner, kinds = inner ++ [.symbol closing] ∧ DerivesItems inner found.1 := by
  refine (Rule.Sound.token? _).bind fun front found same => ?_
  subst same
  cases found with
  | some close => exact .pure ⟨[], by simp, .nil⟩
  | none =>
    refine (sound.expression.orExpected first).bind fun start item items => ?_
    have others : (Rule.many (afterComma grammar.expression)).Sound DerivesMoreItems := by
      refine sound.expression.behind.many .nil ?_ ?_
      · rintro kinds rfl
        exact .nil
      · rintro _ node rear nodes ⟨kinds, rfl, fine⟩ more
        exact .cons fine more
    refine others.bind fun rear more moreItems => ?_
    refine (Rule.Sound.token _ next).bind fun stop close closed => .pure ?_
    exact ⟨start ++ rear, by simp [closed], .cons items moreItems⟩

/-- A body. -/
theorem body (sound : grammar.Sound) :
    grammar.body.Sound fun kinds found => DerivesBody found.2 kinds found.1 := by
  refine (Rule.Sound.token? _).bind fun front found same => ?_
  subst same
  cases found with
  | some line =>
    refine sound.statements.bind fun kinds node fine => .pure ?_
    simpa using DerivesBody.block fine
  | none =>
    refine sound.statement.bind fun kinds node fine => .pure ?_
    simpa using DerivesBody.inline fine

/-- The end of a body. -/
theorem bodyEnd (form : BodyForm) (expected : Expectation) :
    (Grammar.bodyEnd form expected).Sound fun kinds _ => kinds = form.closing := by
  cases form with
  | inline => exact .pure rfl
  | block =>
    refine (Rule.Sound.token _ expected).bind fun kinds word same => .pure ?_
    simp [same, BodyForm.closing]

/-- A body with its end. -/
theorem closedBody (sound : grammar.Sound) :
    grammar.closedBody.Sound fun kinds found =>
      ∃ inner, kinds = inner ++ found.2.closing ∧ DerivesBody found.2 inner found.1 := by
  refine sound.body.bind fun kinds found fine => ?_
  refine (bodyEnd found.2 .endWord).bind fun stop _ same => .pure ?_
  exact ⟨kinds, by simp [same], fine⟩

/-- A condition with its body. -/
def DerivesBranch (kinds : List TokenKind) (branch : Branch) : Prop :=
  ∃ front rear, kinds = front ++ .keyword .thenWord :: rear ∧
    Derives .expression front branch.condition ∧ DerivesBody branch.form rear branch.body

/-- One condition and its body. -/
theorem branch (sound : grammar.Sound) : grammar.branch.Sound DerivesBranch := by
  refine sound.expression.bind fun front condition conditions => ?_
  refine (Rule.Sound.token _ _).bind fun guard _ same => ?_
  refine sound.body.bind fun rear found bodies => .pure ?_
  exact ⟨front, rear, by simp [same], conditions, bodies⟩

/-- What comes after the last branch. -/
theorem otherwise (sound : grammar.Sound) (last : BodyForm) :
    (grammar.otherwise last).Sound (DerivesRest last) := by
  refine (Rule.Sound.token? _).bind fun front found same => ?_
  subst same
  cases found with
  | some word =>
    refine sound.closedBody.bind fun kinds found fine => .pure ?_
    obtain ⟨inner, rfl, bodies⟩ := fine
    simpa using DerivesRest.otherwise bodies
  | none =>
    refine (bodyEnd last .nextBranch).bind fun stop _ same => .pure ?_
    simpa [same] using DerivesRest.closed

/-- A conditional. -/
theorem conditional (sound : grammar.Sound) (word : Span) :
    (grammar.conditional word).Sound fun kinds node =>
      Derives .atom (.keyword .ifWord :: kinds) node := by
  refine sound.branch.bind fun start first firsts => ?_
  -- What comes behind the last branch is the rest of the first one with the others in front.
  have others : (Rule.many grammar.anotherBranch).Sound fun kinds more =>
      ∀ first : Branch, ∀ rear last, DerivesRest (more.getLast?.getD first).form rear last →
        DerivesRest first.form (kinds ++ rear) (more.foldr Branch.before last) := by
    refine sound.branch.behind.many ?_ ?_ ?_
    · exact fun first rear last rest => rest
    · rintro kinds rfl first rear last rest
      exact rest
    · rintro _ branch middle more ⟨_, rfl, front, inner, rfl, conditions, bodies⟩ others first rear
        last rest
      rw [List.getLast?_cons, Option.getD_some] at rest
      have behind : DerivesRest first.form _ _ :=
        .another (.test conditions bodies (others branch rear last rest))
      simpa [Branch.before] using behind
  refine others.bind fun middle more moreBranches => ?_
  refine (sound.otherwise _).bind fun rear last rest => .pure ?_
  obtain ⟨front, inner, rfl, conditions, bodies⟩ := firsts
  have whole : DerivesBranches .ifWord _ _ :=
    .test conditions bodies (moreBranches first rear last rest)
  simpa [Branch.before] using Derives.conditional whole

/-- A counted loop. -/
theorem forLoop (sound : grammar.Sound) :
    grammar.forLoop.Sound fun kinds node => Derives .atom (.keyword .forWord :: kinds) node := by
  refine (Rule.Sound.identifier _).bind fun naming named sameName => ?_
  refine (Rule.Sound.token _ _).bind fun assigning _ sameAssign => ?_
  refine sound.expression.bind fun start first firsts => ?_
  refine (Rule.Sound.token _ _).bind fun leading _ sameTo => ?_
  refine sound.expression.bind fun stop bound bounds => ?_
  have steps : grammar.step.Sound (DerivesOption [.keyword .stepWord]) := by
    refine (Rule.Sound.token? _).bind fun front found same => ?_
    subst same
    cases found with
    | none => exact .pure .none
    | some word =>
      refine sound.expression.bind fun kinds node fine => .pure ?_
      rw [List.append_nil]
      exact .some fine
  refine steps.bind fun middle step stepped => ?_
  refine (Rule.Sound.token _ _).bind fun guarding _ sameThen => ?_
  refine sound.closedBody.bind fun rear found fine => .pure ?_
  obtain ⟨inner, rfl, bodies⟩ := fine
  subst sameName sameAssign sameTo sameThen
  simpa using Derives.forLoop firsts bounds stepped bodies

/-- A conditional loop. -/
theorem whileLoop (sound : grammar.Sound) :
    grammar.whileLoop.Sound fun kinds node => Derives .atom (.keyword .whileWord :: kinds) node := by
  refine sound.expression.bind fun front condition conditions => ?_
  refine (Rule.Sound.token _ _).bind fun guarding _ sameThen => ?_
  refine sound.closedBody.bind fun rear found fine => .pure ?_
  obtain ⟨inner, rfl, bodies⟩ := fine
  subst sameThen
  simpa using Derives.whileLoop conditions bodies

/-- The name of a function, if it has one, and the parenthesis behind it. -/
def DerivesName (kinds : List TokenKind) (name : Option String) : Prop :=
  kinds = name.toList.map .identifier ++ [.symbol .leftParen]

/-- The name of a function, if it has one. -/
theorem functionName : Grammar.functionName.Sound DerivesName := by
  intro tokens name rest parsed
  unfold Grammar.functionName at parsed
  split at parsed
  · refine Rule.Sound.after _ ?_ parsed
    exact (Rule.Sound.token _ _).bind fun kinds _ same => .pure (by simp [DerivesName, same])
  · have unnamed : Rule.Sound DerivesName
        (do let _ ← Rule.symbol .leftParen .identifierOrParameters; return none) :=
      (Rule.Sound.token _ _).bind fun kinds _ same => .pure (by simp [DerivesName, same])
    exact unnamed _ _ _ parsed

/-- The parameters of a function, and the parenthesis behind them. -/
def DerivesParameters (kinds : List TokenKind) (names : List String) : Prop :=
  kinds = separated (.symbol .comma) (names.map fun name => [.identifier name]) ++
    [.symbol .rightParen]

/-- The parameters of a function. -/
theorem parameters : Grammar.parameters.Sound DerivesParameters := by
  intro tokens names rest parsed
  unfold Grammar.parameters at parsed
  split at parsed
  · have others : (Rule.many (afterComma (Rule.identifier .identifier))).Sound fun kinds more =>
        kinds = (more.map fun named => [.identifier named.1]).flatMap (.symbol .comma :: ·) := by
      refine (Rule.Sound.identifier _).behind.many rfl ?_ ?_
      · rintro kinds rfl
        rfl
      · rintro _ named _ more ⟨_, rfl, rfl⟩ rfl
        simp
    refine Rule.Sound.after _ ?_ parsed
    refine others.bind fun front more same => ?_
    refine (Rule.Sound.token _ _).bind fun kinds _ closed => .pure ?_
    simp [DerivesParameters, same, closed, separated, List.map_map, Function.comp_def]
  · have empty : Rule.Sound DerivesParameters
        (do let _ ← Rule.symbol .rightParen .firstParameter; return []) :=
      (Rule.Sound.token _ _).bind fun kinds _ same =>
        .pure (by simp [DerivesParameters, same, separated])
    exact empty _ _ _ parsed

/-- The body of a function. -/
theorem functionBody (sound : grammar.Sound) :
    grammar.functionBody.Sound fun kinds found => ∀ name parameters span,
      Derives .atom (functionHead name parameters ++ kinds)
        (.function span name parameters found.1 found.2.1) := by
  refine (Rule.Sound.token? _).bind fun front found same => ?_
  subst same
  cases found with
  | some arrow =>
    refine sound.expression.bind fun kinds node fine => .pure ?_
    intro name parameters span
    simpa using Derives.arrow fine
  | none =>
    refine (Rule.Sound.token _ _).bind fun line _ sameLine => ?_
    refine sound.statements.bind fun kinds node fine => ?_
    refine (Rule.Sound.token _ _).bind fun stop _ sameStop => .pure ?_
    intro name parameters span
    subst sameLine sameStop
    simpa using Derives.function fine

/-- A function. -/
theorem function (sound : grammar.Sound) (word : Span) :
    (grammar.function word).Sound fun kinds node =>
      Derives .atom (.keyword .funWord :: kinds) node := by
  refine functionName.bind fun front name sameName => ?_
  refine parameters.bind fun middle names sameNames => ?_
  refine sound.functionBody.bind fun rear found fine => .pure ?_
  rw [DerivesName] at sameName
  rw [DerivesParameters] at sameNames
  subst sameName sameNames
  simpa [functionHead] using fine name names (word.through found.2.2)

/-- An atom. -/
theorem atom (sound : grammar.Sound) : grammar.atom.Sound (Derives .atom) := by
  intro tokens node rest parsed
  -- One case for each kind of token that an atom can start with.
  unfold Grammar.atom at parsed
  split at parsed
  · cases parsed
    exact ⟨[_], rfl, .int⟩
  · cases parsed
    exact ⟨[_], rfl, .float⟩
  · cases parsed
    exact ⟨[_], rfl, .text⟩
  · cases parsed
    exact ⟨[_], rfl, .reference⟩
  · refine Rule.Sound.after _ ?_ parsed
    refine sound.expression.bind fun kinds inner fine => ?_
    refine (Rule.Sound.token _ _).bind fun stop _ same => .pure ?_
    simpa [same] using Derives.parenthesised fine
  · rename_i span rest
    refine Rule.Sound.after _ ?_ parsed
    refine (sound.delimited _ _ _).bind fun kinds found fine => .pure ?_
    obtain ⟨inner, rfl, each⟩ := fine
    simpa using Derives.list each
  · exact Rule.Sound.after _ (sound.conditional _) parsed
  · exact Rule.Sound.after _ sound.forLoop parsed
  · exact Rule.Sound.after _ sound.whileLoop parsed
  · exact Rule.Sound.after _ (sound.function _) parsed
  · cases parsed

/-- An atom, called again and again. -/
theorem call (sound : grammar.Sound) : grammar.call.Sound (Derives .call) := by
  refine sound.atom.bind fun front first fine => ?_
  -- Whatever is called, each list of arguments makes one callee of it.
  have calls : (Rule.many grammar.arguments).Sound fun kinds calls =>
      ∀ front callee, Derives .call front callee →
        Derives .call (front ++ kinds) (calls.foldl (fun callee found =>
          .call (callee.span.through found.2) callee found.1) callee) := by
    refine (sound.delimited _ _ _).behind.many ?_ ?_ ?_
    · exact fun front callee callees => by simpa using callees
    · rintro kinds rfl front callee callees
      simpa using callees
    · rintro _ ⟨arguments, close⟩ rear calls ⟨_, rfl, inner, rfl, each⟩ others front callee callees
      simpa using others _ _ (.call callees each)
  refine calls.bind fun rear calls others => .pure ?_
  rw [List.append_nil]
  exact others front first (.atom fine)

/-- A call, raised to factors. -/
theorem power (sound : grammar.Sound) : grammar.power.Sound (Derives (.operations .power)) :=
  Rule.Sound.operations .power sound.call sound.factor

/-- A power, or a factor with a sign. -/
theorem factorRule (sound : grammar.Sound) : grammar.factorRule.Sound (Derives .factor) := by
  intro tokens node rest parsed
  unfold Grammar.factorRule at parsed
  have signed (operator : UnaryOperator) (known : operator ∈ [.plus, .negate]) (sign : Span) :
      (prefixed operator sign grammar.factor).Sound fun kinds node =>
        Derives .factor (operator.kind :: kinds) node :=
    sound.factor.bind fun kinds operand fine => .pure (by simpa using Derives.signed known fine)
  split at parsed
  · exact Rule.Sound.after _ (signed .negate (by decide) _) parsed
  · exact Rule.Sound.after _ (signed .plus (by decide) _) parsed
  · exact (sound.power.imp fun _ _ => .power) _ _ _ parsed

/-- Factors between signs of multiplication. -/
theorem multiplicative (sound : grammar.Sound) :
    grammar.multiplicative.Sound (Derives (.operations .multiplicative)) :=
  Rule.Sound.operations .multiplicative sound.factorRule sound.factorRule

/-- Products between signs of addition. -/
theorem additive (sound : grammar.Sound) :
    grammar.additive.Sound (Derives (.operations .additive)) :=
  Rule.Sound.operations .additive sound.multiplicative sound.multiplicative

/-- Sums between comparisons. -/
theorem compared (sound : grammar.Sound) :
    grammar.compared.Sound (Derives (.operations .comparison)) :=
  Rule.Sound.operations .comparison sound.additive sound.additive

/-- A comparison, or the negation of one. -/
theorem comparisonRule (sound : grammar.Sound) :
    grammar.comparisonRule.Sound (Derives .comparison) := by
  intro tokens node rest parsed
  unfold Grammar.comparisonRule at parsed
  split at parsed
  · refine Rule.Sound.after _ ?_ parsed
    exact sound.comparison.bind fun kinds operand fine => .pure (by simpa using Derives.negation fine)
  · exact ((sound.compared.orExpected _).imp fun _ _ => .comparison) _ _ _ parsed

/-- Comparisons between logical operators. -/
theorem logical (sound : grammar.Sound) :
    grammar.logical.Sound (Derives (.operations .logical)) :=
  Rule.Sound.operations .logical sound.comparisonRule sound.comparisonRule

/-- An assignment, or operators and operands. -/
theorem expressionRule (sound : grammar.Sound) :
    grammar.expressionRule.Sound (Derives .expression) := by
  intro tokens node rest parsed
  unfold Grammar.expressionRule at parsed
  split at parsed
  · refine Rule.Sound.after _ ?_ parsed
    refine (Rule.Sound.identifier _).bind fun naming named sameName => ?_
    refine (Rule.Sound.token _ _).bind fun assigning _ sameAssign => ?_
    refine sound.expression.bind fun kinds value fine => .pure ?_
    subst sameName sameAssign
    simpa using Derives.assign fine
  · exact ((sound.logical.orExpected _).imp fun _ _ => .logical) _ _ _ parsed

/-- A signal, or an expression. -/
theorem statementRule (sound : grammar.Sound) :
    grammar.statementRule.Sound (Derives .statement) := by
  intro tokens node rest parsed
  unfold Grammar.statementRule at parsed
  split at parsed
  · refine Rule.Sound.after _ ?_ parsed
    refine sound.expression.optional.bind fun kinds value fine => .pure ?_
    have values : DerivesOption [] kinds value := by
      cases value with
      | none =>
        obtain rfl : kinds = [] := fine
        exact .none
      | some value => exact .some fine
    simpa using Derives.returning values
  · cases parsed
    exact ⟨[_], rfl, .continuing⟩
  · cases parsed
    exact ⟨[_], rfl, .breaking⟩
  · exact ((sound.expressionRule.orExpected _).imp fun _ _ => .expression) _ _ _ parsed

/-- Statements between newlines. -/
theorem statementsRule (sound : grammar.Sound) :
    grammar.statementsRule.Sound (Derives .statements) := by
  refine Rule.Sound.newlines.bind fun start _ before => ?_
  refine sound.statementRule.bind fun front first fine => ?_
  have another : grammar.anotherStatement.Sound (Maybe
      (fun kinds => ∃ count, kinds = List.replicate count .newline)
      (fun kinds node => ∃ more rest, kinds = List.replicate (more + 1) .newline ++ rest ∧
        Derives .statement rest node)) := by
    refine Rule.Sound.newlines.bind fun lines found counted => ?_
    obtain ⟨count, rfl, some⟩ := counted
    split
    · rename_i present
      obtain ⟨more, rfl⟩ := Nat.exists_eq_add_one_of_ne_zero (some present)
      refine sound.statementRule.optional.imp fun kinds found fine => ?_
      cases found with
      | none =>
        obtain rfl : kinds = [] := fine
        exact ⟨more + 1, by simp⟩
      | some node => exact ⟨more, kinds, rfl, fine⟩
    · exact .pure ⟨count, by simp⟩
  -- Newlines behind the last statement are read together with those before it.
  have others : (Rule.many grammar.anotherStatement).Sound fun kinds nodes =>
      ∃ lines after, kinds = lines ++ List.replicate after .newline ∧
        DerivesLines lines nodes := by
    refine another.many ⟨[], 0, rfl, .nil⟩ ?_ ?_
    · rintro kinds ⟨count, rfl⟩
      exact ⟨[], count, rfl, .nil⟩
    · rintro _ node _ nodes ⟨more, rest, rfl, fine⟩ ⟨lines, after, rfl, behind⟩
      exact ⟨List.replicate (more + 1) .newline ++ rest ++ lines, after, by simp,
        .cons fine behind⟩
  refine others.bind fun rear more behind => .pure ?_
  obtain ⟨count, rfl, _⟩ := before
  obtain ⟨lines, after, rfl, statements⟩ := behind
  simpa using Derives.statements fine statements

/-- Rules that nest one level deeper. -/
theorem nested (depth : Nat) : (Grammar.nested depth).Sound := by
  -- The induction is on how deep rules may nest.
  induction depth with
  | zero => exact ⟨.fail _, .fail _, .fail _, .fail _, .fail _⟩
  | succ depth ih =>
    exact ⟨ih.expressionRule, ih.comparisonRule, ih.factorRule, ih.statementRule, ih.statementsRule⟩

end Sound

end Grammar

/-- What an end of the text was read from is all that there is. -/
theorem EndsOnce.rest_eq {tokens read rest : List Token} (ends : EndsOnce tokens)
    (same : tokens = read ++ rest) (ended : .endOfText ∈ read.map Token.kind) : rest = [] := by
  obtain ⟨body, stop, rfl, noEnd, _⟩ := ends
  obtain ⟨token, member, kind⟩ := List.mem_map.mp ended
  -- The end of the text is no token of the body, so it is the last one of all.
  rcases List.eq_nil_or_concat rest with rfl | ⟨init, last, rfl⟩
  · rfl
  · rw [List.concat_eq_append, ← List.append_assoc] at same
    obtain ⟨rfl, _⟩ := List.append_inj' same rfl
    exact absurd kind (noEnd token (List.mem_append_left init member))

/--
The parser loses nothing: the tokens of a program that it accepts are one of the grammar, which stands
for the tree that it answers, and the tree has all literals, names and operators in their order.
-/
theorem parse_derives {tokens : List Token} {program : Node} (ends : EndsOnce tokens)
    (parsed : parse tokens = .ok program) :
    Derives .statements (tokens.dropLast.map Token.kind) program ∧
      program.words = TokenKind.wordsOf (tokens.dropLast.map Token.kind) := by
  have whole : Rule.Sound (fun kinds node => ∃ body, kinds = body ++ [.endOfText] ∧
      Derives .statements body node) (do
        let program ← (Grammar.nested tokens.length).statements
        let _ ← Rule.token .endOfText .nothing
        return program) := by
    refine (Grammar.Sound.nested tokens.length).statements.bind fun body node fine => ?_
    refine (Rule.Sound.token _ _).bind fun stop _ same => .pure ?_
    exact ⟨body, by simp [same], fine⟩
  have derived : Derives .statements (tokens.dropLast.map Token.kind) program := by
    unfold parse at parsed
    split at parsed
    · rename_i rest found
      cases parsed
      obtain ⟨read, split, body, kinds, fine⟩ := whole _ _ _ found
      obtain rfl : rest = [] := ends.rest_eq split (by simp [kinds])
      rw [split, List.append_nil, List.map_dropLast, kinds, List.dropLast_concat]
      exact fine
    · cases parsed
  exact ⟨derived, derived.words.symm⟩

/-- A difference of a difference and a call, on a line of its own. -/
def subtracting : List Token :=
  [.identifier "x", .symbol .minus, .int 1, .symbol .minus, .identifier "f", .symbol .leftParen,
    .int 2, .symbol .rightParen, .newline, .endOfText].map fun kind => ⟨kind, default⟩

/-- The difference is a program, and its words come in the order of the source. -/
theorem parse_derives_subtracting :
    ∃ program, parse subtracting = .ok program ∧
      Derives .statements (subtracting.dropLast.map Token.kind) program ∧
      program.words =
        [.identifier "x", .symbol .minus, .int 1, .symbol .minus, .identifier "f", .int 2] := by
  have ends : EndsOnce subtracting :=
    ⟨subtracting.dropLast, ⟨.endOfText, default⟩, rfl, by simp [NoEnd, subtracting], rfl⟩
  obtain ⟨program, parsed⟩ : ∃ program, parse subtracting = .ok program := ⟨_, rfl⟩
  obtain ⟨derived, words⟩ := parse_derives ends parsed
  exact ⟨program, parsed, derived, words⟩

end Scriptlet
