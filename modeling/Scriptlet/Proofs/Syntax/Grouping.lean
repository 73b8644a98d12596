import Scriptlet.Proofs.Syntax.RoundTrip
import Scriptlet.Proofs.Syntax.Precedence

/-!
Operators group as their levels say: what stands in a place without parentheses is read there. A
level is read in a loop, so what it reads is told as what the loop goes on from, and a chain of
operators is read from its first operand on.
-/

namespace Scriptlet

namespace Rule

variable {α β : Type}

/-- What the rounds to come make of what there is so far. -/
def foldMany (item : Rule (Option α)) (step : β → α → β) (start : β) : Rule β := do
  return (← many item).foldl step start

/-- A rule reads these tokens first, and goes on in a loop from what they stand for. -/
def Leads (rule : Rule β) (item : Rule (Option α)) (step : β → α → β) (read : List Token)
    (result : β) (next : TokenKind → Prop) : Prop :=
  ∀ rest, next (nextKind rest) → rule (read ++ rest) = foldMany item step result rest

variable {item : Rule (Option α)} {step : β → α → β} {read read' : List Token} {result : β}
  {next next' : TokenKind → Prop}

/-- A loop ends with what there is so far, or takes one more step. -/
theorem foldMany_eq (consumes : Consumes item) (idle : item [] = .ok (none, [])) (start : β) :
    foldMany item step start = (do
      match ← item with
      | none => return start
      | some value => foldMany item step (step start value)) := by
  conv_lhs => rw [foldMany, many_eq consumes idle, bind_assoc]
  congr
  funext found
  cases found with
  | none => rfl
  | some value => simp only [foldMany, bind_assoc, pure_bind, List.foldl_cons]

/-- A loop goes on from its first part. -/
theorem Reads.leads {first : Rule β} (reads : first.Reads read result next) :
    Rule.Leads (do
      let start ← first
      let results ← many item
      return results.foldl step start) item step read result next := by
  intro rest suitable
  rw [bind_apply, reads rest suitable]
  rfl

variable {rule : Rule β}

/-- Behind one more round, a loop goes on from what the round makes of what there was. -/
theorem Leads.round {value : α} (leads : rule.Leads item step read result next)
    (consumes : Consumes item) (idle : item [] = .ok (none, []))
    (round : item.Reads read' (some value) next')
    (meets : ∀ rest, next' (nextKind rest) → next (nextKind (read' ++ rest))) :
    rule.Leads item step (read ++ read') (step result value) next' := by
  intro rest suitable
  rw [List.append_assoc, leads _ (meets rest suitable), foldMany_eq consumes idle, bind_apply,
    round rest suitable]

/-- Where there is no other round, a loop ends with what there is. -/
theorem Leads.reads (leads : rule.Leads item step read result next) (consumes : Consumes item)
    (idle : item [] = .ok (none, [])) (stops : item.Reads [] none next')
    (fewer : ∀ kind, next' kind → next kind) : rule.Reads read result next' := by
  intro rest suitable
  have stopped := stops rest suitable
  rw [List.nil_append] at stopped
  rw [leads rest (fewer _ suitable), foldMany_eq consumes idle, bind_apply, stopped]
  rfl

end Rule

namespace Grammar

/-- The operations of a level go on from what these tokens stand for. -/
def LeadsAt (level : Level) (read : List Token) (node : Node) : Prop :=
  (operationsAt level).Leads
    (Rule.operation (laterOperand level) (TokenKind.operatorAt? level))
    (fun left (operator, right) => .joined operator left right) read node
    (TokenKind.Follows level)

variable {read right : List Token} {node rightNode : Node} {level : Level}

/-- Operations go on from their first operand. -/
theorem leadsAt_first {next : TokenKind → Prop} (reads : (firstOperand level).Reads read node next)
    (fits : ∀ kind : TokenKind, kind.Follows level → next kind) : LeadsAt level read node :=
  (reads.mono fits).leads

/-- Behind an operator of the level and its operand, operations go on from both together. -/
theorem LeadsAt.operation {sign : Token} {operator : BinaryOperator}
    (leads : LeadsAt level read node) (found : sign.kind.operatorAt? level = some operator)
    (follows : sign.kind.Follows level)
    (rights : (laterOperand level).Reads right rightNode (TokenKind.Follows level)) :
    LeadsAt level (read ++ sign :: right) (.joined operator node rightNode) := by
  have round : (Rule.operation (laterOperand level) (TokenKind.operatorAt? level)).Reads
      (sign :: right) (some (operator, rightNode)) (TokenKind.Follows level) := by
    intro rest suitable
    rw [List.cons_append, operation_present found]
    exact rights.map rest suitable
  exact leads.round (Rule.consumes_operation (shrinks_laterOperand level)) rfl round
    fun _ _ => follows

/-- Before what leaves their level, operations end. -/
theorem LeadsAt.reads (leads : LeadsAt level read node) :
    (operationsAt level).Reads read node (TokenKind.Leaves level) :=
  Rule.Leads.reads leads (Rule.consumes_operation (shrinks_laterOperand level)) rfl
    (reads_noOperation fun _ => id) fun _ => TokenKind.Leaves.follows

/-- A call goes on from what these tokens stand for, with a list of arguments in each round. -/
def LeadsCalls (read : List Token) (node : Node) : Prop :=
  full.call.Leads full.arguments
    (fun callee (arguments, close) => .call (callee.span.through close) callee arguments)
    read node fun _ => True

/-- Behind arguments, a call goes on from the call with them. -/
theorem LeadsCalls.arguments {given : List Token} {arguments : List Node} {close : Span}
    (leads : LeadsCalls read node)
    (reads : full.arguments.Reads given (some (arguments, close)) fun _ => True) :
    LeadsCalls (read ++ given) (.call (node.span.through close) node arguments) :=
  Rule.Leads.round leads consumes_arguments rfl reads fun _ _ => trivial

/-- Before what opens no list of arguments, a call ends. -/
theorem LeadsCalls.reads (leads : LeadsCalls read node) :
    full.call.Reads read node (· ≠ .symbol .leftParen) := by
  have absent : full.arguments.Reads [] none (· ≠ .symbol .leftParen) :=
    (Rule.Reads.noToken fun _ => id).bind_nil (Rule.Reads.pure _)
  exact Rule.Leads.reads leads consumes_arguments rfl absent fun _ _ => trivial

end Grammar

open Grammar

namespace Slot

/-- The kinds that what stands in a place starts with. -/
def Starts (slot : Slot) (kind : TokenKind) : Prop :=
  kind.StartsAtom ∨
    ∃ operator : UnaryOperator, operator.kind = kind ∧ slot.rank ≤ operator.slot.rank

/-- What is read in a place; the loops of calls and of operations go on from there. -/
def Takes (read : List Token) (node : Node) : Slot → Prop
  | .expression => LeadsAt .logical read node
  | .comparison => full.comparisonRule.Reads read node (TokenKind.Leaves .comparison)
  | .compared => LeadsAt .comparison read node
  | .sum => LeadsAt .additive read node
  | .product => LeadsAt .multiplicative read node
  | .factor => full.factorRule.Reads read node (TokenKind.Leaves .power)
  | .call => LeadsCalls read node

/-- The rule that reads what stands in a place. -/
def rule : Slot → Rule Node
  | .expression => full.logical
  | .comparison => full.comparisonRule
  | .compared => full.compared
  | .sum => full.additive
  | .product => full.multiplicative
  | .factor => full.factorRule
  | .call => full.call

/-- The kinds with which nothing goes on in a place. -/
def Ends : Slot → TokenKind → Prop
  | .expression => TokenKind.Leaves .logical
  | .comparison | .compared => TokenKind.Leaves .comparison
  | .sum => TokenKind.Leaves .additive
  | .product => TokenKind.Leaves .multiplicative
  | .factor => TokenKind.Leaves .power
  | .call => (· ≠ .symbol .leftParen)

/-- The next looser place, if there is one. -/
def looser : Slot → Slot
  | .expression | .comparison => .expression
  | .compared => .comparison
  | .sum => .compared
  | .product => .sum
  | .factor => .product
  | .call => .factor

theorem rank_looser (slot : Slot) : slot.looser.rank = slot.rank - 1 := by
  cases slot <;> rfl

theorem rank_injective : Function.Injective rank := by
  intro slot slot' same
  cases slot <;> cases slot' <;> first | rfl | cases same

variable {slot : Slot} {kind other : TokenKind} {read : List Token} {node : Node}

/-- What starts in a place starts in every looser one. -/
theorem Starts.loosen {tight : Slot} (starts : tight.Starts kind)
    (order : slot.rank ≤ tight.rank) : slot.Starts kind := by
  rcases starts with atom | ⟨operator, same, bound⟩
  · exact .inl atom
  · exact .inr ⟨operator, same, Nat.le_trans order bound⟩

/-- Nothing starts in a place with other kinds than those of atoms and of suitable operators. -/
theorem Starts.ne (starts : slot.Starts kind) (noAtom : ¬ other.StartsAtom)
    (noOperator : ∀ operator : UnaryOperator, operator.kind = other →
      operator.slot.rank < slot.rank) : kind ≠ other := by
  rintro rfl
  rcases starts with atom | ⟨operator, same, tight⟩
  · exact noAtom atom
  · exact absurd tight (Nat.not_le.mpr (noOperator operator same))

/-- No sign starts a call. -/
theorem Starts.no_sign (starts : Slot.call.Starts kind) :
    kind ≠ .symbol .minus ∧ kind ≠ .symbol .plus := by
  have looser : ∀ operator : UnaryOperator, operator.slot.rank < Slot.call.rank := by
    intro operator
    cases operator <;> decide
  exact ⟨starts.ne (by simp [TokenKind.StartsAtom]) fun operator _ => looser operator,
    starts.ne (by simp [TokenKind.StartsAtom]) fun operator _ => looser operator⟩

/-- What starts in a place starts an expression. -/
theorem Starts.expression (starts : slot.Starts kind) : kind.StartsExpression := by
  rcases starts with atom | ⟨operator, rfl, _⟩
  · exact .inl atom
  · cases operator <;> exact .inr (by simp [UnaryOperator.kind])

/-- What is read in a place is read by its rule where nothing goes on. -/
theorem Takes.reads (takes : slot.Takes read node) : slot.rule.Reads read node slot.Ends := by
  cases slot with
  | expression | compared | sum | product => exact LeadsAt.reads takes
  | comparison | factor => exact takes
  | call => exact LeadsCalls.reads takes

end Slot

/-- These tokens are read in a place, and start like something that stands there. -/
structure Filled (slot : Slot) (read : List Token) (node : Node) : Prop where
  takes : slot.Takes read node
  starts : ∀ rest, slot.Starts (nextKind (read ++ rest))

namespace Filled

variable {slot tight : Slot} {read : List Token} {node : Node}

/-- What is read in a place is read in the next looser one. -/
theorem looser (filled : Filled slot read node) : Filled slot.looser read node := by
  refine ⟨?_, fun rest => (filled.starts rest).loosen (by rw [Slot.rank_looser]; omega)⟩
  have reads := filled.takes.reads
  cases slot with
  | expression => exact filled.takes
  | comparison | sum | product | factor =>
    exact leadsAt_first reads fun _ follows => follows.leaves (by decide)
  | compared =>
    -- The word for a negation would be looser.
    refine reads_comparison (fun rest => (filled.starts rest).ne ?_ ?_) reads
    · simp [TokenKind.StartsAtom]
    · intro operator same
      cases operator <;> simp [UnaryOperator.kind, UnaryOperator.slot, Slot.rank] at same ⊢
  | call =>
    have power := reads_power (reads.mono fun _ leaves => leaves.1) fun _ => id
    exact reads_factor (fun rest => (filled.starts rest).no_sign) power

/-- What is read in a place is read in every looser one. -/
theorem loosen (filled : Filled tight read node) (order : slot.rank ≤ tight.rank) :
    Filled slot read node := by
  -- Step by step, on how much looser the place is.
  obtain ⟨steps, apart⟩ := Nat.exists_eq_add_of_le order
  induction steps generalizing tight with
  | zero =>
    obtain rfl := Slot.rank_injective apart
    exact filled
  | succ steps ih =>
    have closer := tight.rank_looser
    exact ih filled.looser (by omega) (by omega)

/-- An atom is read in the tightest place. -/
theorem of_operand (operand : Operand (fun _ => True) read node) : Filled .call read node where
  takes := operand.atom.leads
  starts rest := .inl (operand.starts rest)

/-- What is read in a place is an expression before what leaves every level. -/
theorem expression (filled : Filled slot read node) :
    full.expression.Reads read node (TokenKind.Leaves .logical) := by
  have loose : Filled .expression read node := filled.loosen (Nat.zero_le _)
  refine reads_expression (fun rest => (loose.starts rest).ne ?_ ?_) loose.takes.reads
  · simp [TokenKind.StartsAtom]
  · intro operator same
    cases operator <;> simp [UnaryOperator.kind] at same

variable {level : Level} {left right : List Token} {leftNode rightNode : Node}

/-- What is read behind an operator is an operand of its level. -/
theorem later (filled : Filled level.rightSlot right rightNode) :
    (laterOperand level).Reads right rightNode level.rightSlot.Ends := by
  have reads := filled.takes.reads
  cases level with
  | logical | comparison | additive | multiplicative => exact reads
  | power =>
    rw [laterOperand, full_factor]
    exact reads

/-- Two operands in their places, with an operator between them, are read in the place of both. -/
theorem operation {operator : BinaryOperator} {sign : Span}
    (lefts : Filled operator.level.leftSlot left leftNode)
    (rights : Filled operator.level.rightSlot right rightNode) :
    Filled operator.level.slot (left ++ ⟨operator.kind, sign⟩ :: right)
      (.joined operator leftNode rightNode) := by
  have found := operator.operatorAt?_kind
  have follows := operator.follows_kind
  generalize operator.level = level at *
  have later := rights.later
  constructor
  · cases level with
    | logical | comparison | additive | multiplicative =>
      exact LeadsAt.operation lefts.takes found follows
        (later.mono fun _ follows => follows.leaves (by decide))
    | power =>
      -- A power has one call before its sign, and all that comes behind it is one factor.
      rw [laterOperand] at later
      refine reads_factor (fun rest => ?_)
        (reads_operation shrinks_factor lefts.takes.reads follows.1 found later fun _ => id)
      rw [List.append_assoc]
      exact (lefts.starts _).no_sign
  · intro rest
    rw [List.append_assoc]
    refine (lefts.starts _).loosen ?_
    cases level <;> decide

/-- An operator before its operand is read in the place of the operand. -/
theorem signed {operator : UnaryOperator} {sign : Span} (filled : Filled operator.slot read node) :
    Filled operator.slot (⟨operator.kind, sign⟩ :: read)
      (.unary (sign.through node.span) operator node) := by
  refine ⟨?_, fun rest => .inr ⟨operator, rfl, Nat.le_refl _⟩⟩
  have reads := filled.takes.reads
  cases operator with
  | negate | plus =>
    have factor : full.factor.Reads read node (TokenKind.Leaves .power) := full_factor ▸ reads
    exact factor.map
  | not =>
    have comparison : full.comparison.Reads read node (TokenKind.Leaves .comparison) :=
      full_comparison ▸ reads
    exact comparison.map

end Filled

/-- What is written so is read back in a place. -/
def Node.FilledFrom (slot : Slot) (kinds : List TokenKind) (node : Node) : Prop :=
  ∀ read : List Token, read.map Token.kind = kinds →
    ∃ result : Node, result.Alike node ∧ Filled slot read result

/-- An expression is read back, without parentheses, in the place that it fills. -/
def Node.Shows (node : Node) : Prop :=
  node.FilledFrom node.slot node.shown

section Places

variable {span : Span} {slot : Slot} {node : Node}

/-- What is read back in a place is read back as an expression. -/
theorem Node.FilledFrom.reread {kinds : List TokenKind} (filled : node.FilledFrom slot kinds) :
    node.RereadFrom kinds := by
  intro read written
  obtain ⟨result, alike, filled⟩ := filled read written
  exact ⟨result, alike, filled.expression, fun rest => (filled.starts rest).expression⟩

/-- Every place takes an expression, in parentheses if it is too loose. -/
theorem Node.Shows.shownIn (shows : node.Shows) (slot : Slot) :
    node.FilledFrom slot (node.shownIn slot) := by
  intro read written
  rw [Node.shownIn, Node.placed] at written
  split at written
  · -- Parentheses make an atom of what is read back between them.
    obtain ⟨opening, rest, rfl, behind⟩ := map_eq_cons written
    obtain ⟨inner, last, rfl, same, closed⟩ := List.map_eq_append_iff.mp behind
    obtain ⟨closing, rfl⟩ := map_eq_singleton closed
    obtain ⟨result, alike, filled⟩ := shows inner same
    have expression := filled.expression.mono fun _ (ends : TokenKind.Ends _) => ends.leaves _
    refine ⟨result, alike, (Filled.of_operand (operand_of_expression expression)).loosen ?_⟩
    cases slot <;> decide
  · rename_i order
    obtain ⟨result, alike, filled⟩ := shows read written
    exact ⟨result, alike, filled.loosen (Nat.le_of_not_lt order)⟩

/-- What is shown as it is written inside others is read back as an atom. -/
theorem Node.Readable.shows (readable : node.Readable) (same : node.shown = node.written)
    (atom : node.slot = .call) : node.Shows := by
  intro read written
  rw [same] at written
  obtain ⟨result, alike, operand⟩ := readable read written
  rw [atom]
  exact ⟨result, alike, .of_operand operand⟩

/-- Two operands around an operator are read back in the place of both. -/
theorem shows_binary {operator : BinaryOperator} {left right : Node} (lefts : left.Shows)
    (rights : right.Shows) : (Node.binary span operator left right).Shows := by
  intro read written
  obtain ⟨first, others, rfl, firstSame, behind⟩ := List.map_eq_append_iff.mp written
  obtain ⟨sign, second, rfl, secondSame⟩ := map_eq_cons behind
  obtain ⟨leftResult, leftAlike, leftFilled⟩ := lefts.shownIn _ first firstSame
  obtain ⟨rightResult, rightAlike, rightFilled⟩ := rights.shownIn _ second secondSame
  exact ⟨.joined operator leftResult rightResult, .binary trivial leftAlike rightAlike,
    leftFilled.operation rightFilled⟩

/-- An operator before its operand is read back in the place of the operand. -/
theorem shows_unary {operator : UnaryOperator} {operand : Node} (inner : operand.Shows) :
    (Node.unary span operator operand).Shows := by
  intro read written
  obtain ⟨sign, rest, rfl, same⟩ := map_eq_cons written
  obtain ⟨result, alike, filled⟩ := inner.shownIn _ rest same
  exact ⟨.unary (sign.through result.span) operator result, .unary trivial alike, filled.signed⟩

/-- What is shown in a row is what each of the expressions is shown as. -/
theorem Node.shownEach_eq (nodes : List Node) : Node.shownEach nodes = nodes.map Node.shown := by
  induction nodes with
  | nil => rfl
  | cons node rest ih => rw [Node.shownEach, ih, List.map_cons]

/-- A list is read back as an atom. -/
theorem shows_list {items : List Node} (each : ∀ item ∈ items, item.Shows) :
    (Node.list span items).Shows := by
  intro read written
  rw [Node.shown, Node.shownEach_eq] at written
  obtain ⟨result, alike, operand⟩ :=
    operand_list (fun item member => (each item member).reread) written
  exact ⟨result, alike, .of_operand operand⟩

/-- A call is read back as a call. -/
theorem shows_call {callee : Node} {arguments : List Node} (callees : callee.Shows)
    (each : ∀ argument ∈ arguments, argument.Shows) :
    (Node.call span callee arguments).Shows := by
  intro read written
  rw [Node.shown, Node.shownEach_eq, List.append_assoc] at written
  obtain ⟨first, given, rfl, firstSame, givenSame⟩ := List.map_eq_append_iff.mp written
  obtain ⟨result, alike, filled⟩ := callees.shownIn _ first firstSame
  obtain ⟨results, close, allAlike, reads⟩ :=
    reads_arguments (fun argument member => (each argument member).reread) givenSame
  refine ⟨.call (result.span.through close) result results, .call trivial alike allAlike,
    LeadsCalls.arguments filled.takes reads, fun rest => ?_⟩
  rw [List.append_assoc]
  exact filled.starts _

/-- Every expression is read back in the place that it fills. -/
theorem Node.IsExpression.shows {node : Node} : node.IsExpression → node.Shows
  | .binary lefts rights => shows_binary lefts.shows rights.shows
  | .unary inner => shows_unary inner.shows
  | .list each => shows_list fun item member => (each item member).shows
  | .call callees each => shows_call callees.shows fun argument member =>
    (each argument member).shows
  | .int => readable_int.shows rfl rfl
  | .float => readable_float.shows rfl rfl
  | .text => readable_text.shows rfl rfl
  | .reference => readable_reference.shows rfl rfl
  | .assign inner => (Node.IsExpression.assign inner).readable.shows rfl rfl
  | .conditional conditions bodies others =>
    (Node.IsExpression.conditional conditions bodies others).readable.shows rfl rfl
  | .forLoop firsts bounds steps bodies =>
    (Node.IsExpression.forLoop firsts bounds steps bodies).readable.shows rfl rfl
  | .whileLoop conditions bodies =>
    (Node.IsExpression.whileLoop conditions bodies).readable.shows rfl rfl
  | .arrow inner => (Node.IsExpression.arrow inner).readable.shows rfl rfl
  | .function bodies => (Node.IsExpression.function bodies).readable.shows rfl rfl

end Places

/-- The program of one expression is parsed from these tokens, whatever ranges they have. -/
def Node.ParsedFrom (kinds : List TokenKind) (node : Node) : Prop :=
  ∀ tokens : List Token, tokens.map Token.kind = kinds ++ [.endOfText] →
    ∃ span result, parse tokens = .ok (.sequence span [result]) ∧ result.Alike node

/--
These tokens stand for an expression: it is written as them in every place that is loose enough,
and it is parsed from them.
-/
def Node.GroupedFrom (kinds : List TokenKind) (node : Node) : Prop :=
  (∀ slot : Slot, slot.rank ≤ node.slot.rank → node.shownIn slot = kinds) ∧ node.ParsedFrom kinds

section Programs

variable {node : Node} {kinds : List TokenKind}

/-- What is read back as an expression is parsed as the program of that expression. -/
theorem Node.RereadFrom.parsedFrom (reread : node.RereadFrom kinds) : node.ParsedFrom kinds := by
  intro tokens written
  obtain ⟨read, last, rfl, same, closed⟩ := List.map_eq_append_iff.mp written
  obtain ⟨stop, rfl⟩ := map_eq_singleton closed
  have single : read.map Token.kind = separated .newline ([node].map fun _ => kinds) := by
    rw [same]
    exact (List.append_nil kinds).symm
  obtain ⟨span, results, alike, statements⟩ :=
    reads_statements (List.cons_ne_nil _ _) (by simpa using reread.stated) single
  obtain ⟨result, _, same, none, rfl⟩ := List.forall₂_cons_right_iff.mp alike
  cases none
  exact ⟨span, result, parse_eq_of_reads statements
    (BodyForm.Final.stops BodyForm.block.final_endOfText) stop, same⟩

/-- An expression is written without parentheses in every place that is loose enough for it. -/
theorem Node.shownIn_eq {slot : Slot} (loose : slot.rank ≤ node.slot.rank) :
    node.shownIn slot = node.shown :=
  if_neg (Nat.not_lt.mpr loose)

/-- An expression stands for the tokens that it is written as. -/
theorem Node.IsExpression.grouped (expression : node.IsExpression) :
    node.GroupedFrom node.shown :=
  ⟨fun _ => Node.shownIn_eq, expression.shows.reread.parsedFrom⟩

/--
Every expression, written with parentheses around an operand exactly where it is too loose for its
place, is parsed back up to ranges. So no two expressions are written alike, and signs, powers,
negations and subtractions group as their levels say.
-/
theorem parse_shown :
    (∀ node : Node, node.IsExpression → node.ParsedFrom node.shown) ∧
    (∀ first second : Node, first.IsExpression → second.IsExpression →
      first.shown = second.shown → first.Alike second) ∧
    ∀ (outer middle inner : Span) (a b c : Node), a.IsExpression → b.IsExpression →
      c.IsExpression →
        (Node.unary outer .negate (.binary inner .pow a b)).GroupedFrom
          (.symbol .minus :: (a.shownIn .call ++ .symbol .caret :: b.shownIn .factor)) ∧
        (Node.binary outer .pow a (.unary middle .negate (.binary inner .pow b c))).GroupedFrom
          (a.shownIn .call ++ .symbol .caret :: .symbol .minus ::
            (b.shownIn .call ++ .symbol .caret :: c.shownIn .factor)) ∧
        (Node.unary outer .not (.binary inner .equal a b)).GroupedFrom
          (.keyword .notWord :: (a.shownIn .compared ++ .symbol .equal :: b.shownIn .sum)) ∧
        (Node.binary outer .sub (.binary inner .sub a b) c).GroupedFrom
          ((a.shownIn .sum ++ .symbol .minus :: b.shownIn .product) ++
            .symbol .minus :: c.shownIn .product) := by
  refine ⟨fun node expression => expression.grouped.2, ?_, ?_⟩
  · -- Both expressions are what the same tokens are parsed to.
    intro first second one other same
    have written : ((first.shown ++ [TokenKind.endOfText]).map fun kind =>
        (⟨kind, default⟩ : Token)).map Token.kind = first.shown ++ [.endOfText] := by
      rw [List.map_map]
      exact List.map_id _
    obtain ⟨_, result, parsed, alike⟩ := one.grouped.2 _ written
    rw [same] at written
    obtain ⟨_, result', parsed', alike'⟩ := other.grouped.2 _ written
    rw [same, parsed'] at parsed
    cases parsed
    exact Node.Similar.join (fun _ _ _ _ _ => trivial) _ _ _ alike alike'
  · intro outer middle inner a b c first second third
    exact ⟨(Node.IsExpression.unary (.binary first second)).grouped,
      (Node.IsExpression.binary first (.unary (.binary second third))).grouped,
      (Node.IsExpression.unary (.binary first second)).grouped,
      (Node.IsExpression.binary (.binary first second) third).grouped⟩

/-- A negated comparison of a negative power with a difference, in front of a sum in parentheses. -/
def grouping (span : Span) : Node :=
  .binary span .and
    (.unary span .not (.binary span .lessEqual
      (.unary span .negate (.binary span .pow (.reference span "x") (.int span 2)))
      (.binary span .sub
        (.binary span .sub (.call span (.reference span "f") [.list span [.int span 1]])
          (.float span 0.5))
        (.int span 1))))
    (.binary span .mul (.binary span .add (.text span "a") (.int span 1)) (.reference span "y"))

/-- Parsed from the tokens of `NOT -x ^ 2 <= f([1]) - 0.5 - 1 AND ("a" + 1) * y`. -/
theorem parse_shown_grouping :
    (grouping default).IsExpression ∧ (grouping default).ParsedFrom
      [.keyword .notWord, .symbol .minus, .identifier "x", .symbol .caret, .int 2,
        .symbol .lessEqual, .identifier "f", .symbol .leftParen, .symbol .leftBracket, .int 1,
        .symbol .rightBracket, .symbol .rightParen, .symbol .minus, .float 0.5, .symbol .minus,
        .int 1, .keyword .andWord, .symbol .leftParen, .text "a", .symbol .plus, .int 1,
        .symbol .rightParen, .symbol .star, .identifier "y"] ∧
      (grouping default).Alike (grouping ⟨⟨"other", ""⟩, default, default⟩) ∧
      (Node.binary default .sub (.binary default .sub (.reference default "x") (.int default 2))
        (.reference default "y")).GroupedFrom
          [.identifier "x", .symbol .minus, .int 2, .symbol .minus, .identifier "y"] := by
  have expression : ∀ span, (grouping span).IsExpression := by
    intro span
    refine .binary (.unary (.binary (.unary (.binary .reference .int))
      (.binary (.binary (.call .reference ?_) .float) .int)))
      (.binary (.binary .text .int) .reference)
    simp only [List.forall_mem_singleton]
    refine .list ?_
    simp only [List.forall_mem_singleton]
    exact .int
  exact ⟨expression _, parse_shown.1 _ (expression _),
    parse_shown.2.1 _ _ (expression _) (expression _) rfl,
    (parse_shown.2.2 default default default _ _ _ .reference .int .reference).2.2.2⟩

end Programs

end Scriptlet
