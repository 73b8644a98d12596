import Scriptlet.Proofs.Syntax.Levels
import Scriptlet.Proofs.Syntax.Printer

/-!
Whatever is written down is read as the construct that it was written from, whatever the ranges of
the tokens are. One lemma for each construct says so, provided that its parts are read back.
-/

namespace Scriptlet

/-- Two constructs that differ in their ranges only. -/
abbrev Node.Alike (left right : Node) : Prop :=
  left.Similar (fun _ _ => True) right

/-- What stands inside others is read back as an atom. -/
def Node.Readable (node : Node) : Prop :=
  ∀ read : List Token, read.map Token.kind = node.written →
    ∃ result : Node, result.Alike node ∧ Grammar.Operand (fun _ => True) read result

/-- What stands between parentheses is read back as an expression. -/
def Node.ReadableInside (node : Node) : Prop :=
  ∀ read : List Token, read.map Token.kind = node.kinds →
    ∃ result : Node, result.Alike node ∧
      Grammar.full.expression.Reads read result TokenKind.Ends

/-- What is written is one token of the kind that is read. -/
theorem map_eq_singleton {read : List Token} {kind : TokenKind}
    (written : read.map Token.kind = [kind]) : ∃ span, read = [⟨kind, span⟩] := by
  obtain ⟨token, rfl, rfl⟩ := List.map_eq_singleton_iff.mp written
  exact ⟨token.span, rfl⟩

/-- What is written first is a token of that kind. -/
theorem map_eq_cons {read : List Token} {kind : TokenKind} {kinds : List TokenKind}
    (written : read.map Token.kind = kind :: kinds) :
    ∃ span rest, read = ⟨kind, span⟩ :: rest ∧ rest.map Token.kind = kinds := by
  obtain ⟨token, rest, rfl, rfl, same⟩ := List.map_eq_cons_iff.mp written
  exact ⟨token.span, rest, rfl, same⟩

namespace Grammar

/-- An expression in parentheses is an atom. -/
theorem operand_of_expression {read : List Token} {node : Node} {opening closing : Span}
    (expression : full.expression.Reads read node TokenKind.Ends) :
    Operand (fun _ => True)
      (⟨.symbol .leftParen, opening⟩ :: (read ++ [⟨.symbol .rightParen, closing⟩])) node where
  atom := by
    -- The parenthesis that closes ends the expression.
    have close : (Rule.symbol .rightParen .closingParenthesis).Reads
        [⟨.symbol .rightParen, closing⟩] ⟨.symbol .rightParen, closing⟩ fun _ => True :=
      Rule.Reads.token ⟨.symbol .rightParen, closing⟩ _
    have inner : full.parenthesised.Reads (read ++ [⟨.symbol .rightParen, closing⟩]) node
        fun _ => True :=
      expression.bind (close.bind_nil (Rule.Reads.pure node)) fun _ _ => .inl (by simp)
    exact fun rest suitable => inner rest suitable
  starts _ := by simp [TokenKind.StartsAtom]

end Grammar

open Grammar

section Atoms

/-- A compound expression is read back between its parentheses. -/
theorem Node.ReadableInside.readable {node : Node} (compound : node.IsCompound = true)
    (inside : node.ReadableInside) : node.Readable := by
  intro read written
  simp only [Node.written, Node.enclose, compound, if_true] at written
  obtain ⟨opening, rest, rfl, behind⟩ := map_eq_cons written
  obtain ⟨inner, last, rfl, same, closed⟩ := List.map_eq_append_iff.mp behind
  obtain ⟨closing, rfl⟩ := map_eq_singleton closed
  obtain ⟨result, alike, expression⟩ := inside inner same
  exact ⟨result, alike, operand_of_expression expression⟩

/-- What is an atom between its parentheses is an expression there. -/
theorem Node.ReadableInside.of_atom {node : Node} (atom : ∀ read : List Token,
    read.map Token.kind = node.kinds → ∃ result : Node, result.Alike node ∧
      Operand TokenKind.Ends read result) : node.ReadableInside := by
  intro read written
  obtain ⟨result, alike, operand⟩ := atom read written
  exact ⟨result, alike, operand.expression fun _ ends => ends.leaves .logical⟩

/-- What is written as one token is read back as what that token stands for. -/
theorem Node.Readable.of_token {node : Node} {kind : TokenKind} (told : Span → Node)
    (written : node.written = [kind]) (starts : kind.StartsAtom)
    (known : ∀ span rest, full.atom (⟨kind, span⟩ :: rest) = .ok (told span, rest))
    (alike : ∀ span, (told span).Alike node) : node.Readable := by
  intro read same
  rw [written] at same
  obtain ⟨span, rfl⟩ := map_eq_singleton same
  exact ⟨told span, alike span, fun rest _ => known span rest, fun _ => starts⟩

/-- An integer is read back. -/
theorem readable_int {span : Span} {value : Int64} : (Node.int span value).Readable :=
  .of_token (fun span => .int span value) rfl trivial (fun _ _ => rfl) fun _ => .int trivial

/-- A decimal number is read back. -/
theorem readable_float {span : Span} {value : Float} : (Node.float span value).Readable :=
  .of_token (fun span => .float span value) rfl trivial (fun _ _ => rfl) fun _ => .float trivial

/-- A text is read back. -/
theorem readable_text {span : Span} {value : String} : (Node.text span value).Readable :=
  .of_token (fun span => .text span value) rfl trivial (fun _ _ => rfl) fun _ => .text trivial

/-- A variable is read back. -/
theorem readable_reference {span : Span} {name : String} : (Node.reference span name).Readable :=
  .of_token (fun span => .reference span name) rfl trivial (fun _ _ => rfl) fun _ =>
    .reference trivial

end Atoms

section Operators

/-- An operator is written as a token that stands for it at its level. -/
theorem BinaryOperator.operatorAt?_kind (operator : BinaryOperator) :
    operator.kind.operatorAt? operator.level = some operator := by
  cases operator <;> rfl

/-- An operator may follow an operand of its own level. -/
theorem BinaryOperator.follows_kind (operator : BinaryOperator) :
    operator.kind.Follows operator.level := by
  cases operator <;>
    exact ⟨by simp [BinaryOperator.kind], fun _ found => by cases found; exact Nat.le_refl _⟩

/-- Two operands around an operator are read back. -/
theorem readable_binary {span : Span} {operator : BinaryOperator} {left right : Node}
    (lefts : left.Readable) (rights : right.Readable) :
    (Node.binary span operator left right).Readable := by
  refine Node.ReadableInside.readable rfl fun read written => ?_
  obtain ⟨first, others, rfl, firstSame, behind⟩ := List.map_eq_append_iff.mp written
  obtain ⟨sign, second, rfl, secondSame⟩ := map_eq_cons behind
  obtain ⟨leftResult, leftAlike, leftOperand⟩ := lefts first firstSame
  obtain ⟨rightResult, rightAlike, rightOperand⟩ := rights second secondSame
  refine ⟨.joined operator leftResult rightResult, .binary trivial leftAlike rightAlike, ?_⟩
  -- Both operands are read at the level of the operator, and all the looser levels pass them on.
  have leftReads : (firstOperand operator.level).Reads first leftResult (· = operator.kind) :=
    (leftOperand.mono fun _ _ => trivial).first operator.level (by
      rintro _ rfl
      exact operator.follows_kind)
  have rightReads : (laterOperand operator.level).Reads second rightResult TokenKind.Ends :=
    (rightOperand.mono fun _ _ => trivial).later operator.level fun _ ends => ends.leaves .logical
  have both : (operationsAt operator.level).Reads (first ++ ⟨operator.kind, sign⟩ :: second)
      (.joined operator leftResult rightResult) TokenKind.Ends :=
    reads_operation (shrinks_laterOperand _) leftReads rfl operator.operatorAt?_kind rightReads
      fun _ ends => ends.leaves _
  refine expression_of_operations (fun _ ends => ends.leaves .logical) operator.level ?_ both
  intro rest
  rw [List.append_assoc]
  exact leftOperand.starts _

/-- An operator before its operand is read back. -/
theorem readable_unary {span : Span} {operator : UnaryOperator} {operand : Node}
    (inner : operand.Readable) : (Node.unary span operator operand).Readable := by
  refine Node.ReadableInside.readable rfl fun read written => ?_
  obtain ⟨sign, rest, rfl, same⟩ := map_eq_cons written
  obtain ⟨result, alike, reads⟩ := inner rest same
  refine ⟨.unary (sign.through result.span) operator result, .unary trivial alike, ?_⟩
  -- A sign is followed by a factor, and a negation by a comparison.
  have leaves : ∀ kind : TokenKind, kind.Ends → kind.Leaves .logical := fun _ ends => ends.leaves _
  have operand : Operand TokenKind.Ends rest result := reads.mono fun _ _ => trivial
  have factor : full.factor.Reads rest result TokenKind.Ends :=
    full_factor ▸ operand.factor fun _ ends => (ends.leaves .multiplicative).follows
  have comparison : full.comparison.Reads rest result TokenKind.Ends :=
    full_comparison ▸ operand.comparison fun _ ends => (ends.leaves .logical).follows
  cases operator with
  | negate =>
    have signed : full.factorRule.Reads (⟨.symbol .minus, sign⟩ :: rest)
        (.unary (sign.through result.span) .negate result) TokenKind.Ends := factor.map
    exact expression_of_factor leaves (by simp [UnaryOperator.kind])
      (by simp [UnaryOperator.kind]) signed
  | plus =>
    have signed : full.factorRule.Reads (⟨.symbol .plus, sign⟩ :: rest)
        (.unary (sign.through result.span) .plus result) TokenKind.Ends := factor.map
    exact expression_of_factor leaves (by simp [UnaryOperator.kind])
      (by simp [UnaryOperator.kind]) signed
  | not =>
    have negated : full.comparisonRule.Reads (⟨.keyword .notWord, sign⟩ :: rest)
        (.unary (sign.through result.span) .not result) TokenKind.Ends := comparison.map
    exact expression_of_comparison leaves (by simp [UnaryOperator.kind]) negated

end Operators

section Sequences

/-- What is written in a row is what each of the constructs is written as. -/
theorem Node.writtenEach_eq (nodes : List Node) :
    Node.writtenEach nodes = nodes.map Node.written := by
  induction nodes with
  | nil => rfl
  | cons node rest ih => rw [Node.writtenEach, ih, List.map_cons, Node.written]

/-- Parts behind separators are read back one after the other. -/
theorem reads_separated {α β : Type} {item : Rule (Option α)} {relation : α → β → Prop}
    {write : β → List TokenKind} {separator : TokenKind} {next final : TokenKind → Prop}
    (consumes : Rule.Consumes item) (idle : item [] = .ok (none, []))
    (stops : item.Reads [] none final) (separates : next separator)
    (ends : ∀ kind, final kind → next kind) (values : List β)
    (each : ∀ value ∈ values, ∀ read : List Token, read.map Token.kind = separator :: write value →
      ∃ result, relation result value ∧ item.Reads read (some result) next) :
    ∀ read : List Token, read.map Token.kind = (values.map write).flatMap (separator :: ·) →
      ∃ results, List.Forall₂ relation results values ∧
        (Rule.many item).Reads read results final ∧
        ∀ rest, final (nextKind rest) → next (nextKind (read ++ rest)) := by
  -- The induction goes along the parts; what comes behind one of them is the next separator.
  induction values with
  | nil =>
    intro read written
    obtain rfl := List.map_eq_nil_iff.mp written
    exact ⟨[], .nil, Rule.Reads.many_nil consumes idle stops, fun _ => ends _⟩
  | cons value values ih =>
    intro read written
    rw [List.map_cons, List.flatMap_cons] at written
    obtain ⟨first, others, rfl, firstSame, otherSame⟩ := List.map_eq_append_iff.mp written
    obtain ⟨result, related, reads⟩ := each value List.mem_cons_self first firstSame
    obtain ⟨results, allRelated, readsAll, meets⟩ :=
      ih (fun value member => each value (List.mem_cons_of_mem _ member)) others otherSame
    refine ⟨result :: results, .cons related allRelated,
      Rule.Reads.many_cons consumes idle reads readsAll meets, fun rest _ => ?_⟩
    obtain ⟨span, behind, rfl, _⟩ := map_eq_cons firstSame
    exact separates

/-- What follows a comma is read back. -/
theorem reads_afterComma {α : Type} {item : Rule α} {comma : Span} {read : List Token} {result : α}
    {next : TokenKind → Prop} (reads : item.Reads read result next) :
    (afterComma item).Reads (⟨.symbol .comma, comma⟩ :: read) (some result) next := by
  have first : (Rule.token? (.symbol .comma)).Reads [⟨.symbol .comma, comma⟩]
      (some ⟨.symbol .comma, comma⟩) fun _ => True := Rule.Reads.token? ⟨.symbol .comma, comma⟩
  exact first.bind reads.map fun _ _ => trivial

/-- What is written so is read back as an expression before what leaves every level. -/
def Node.RereadFrom (kinds : List TokenKind) (node : Node) : Prop :=
  ∀ read : List Token, read.map Token.kind = kinds → ∃ result : Node, result.Alike node ∧
    full.expression.Reads read result (fun kind => kind.Leaves .logical) ∧
    ∀ rest, (nextKind (read ++ rest)).StartsExpression

/-- An expression is read back from what is written inside others. -/
theorem Node.Readable.expression {node : Node} (readable : node.Readable) :
    node.RereadFrom node.written := by
  intro read written
  obtain ⟨result, alike, operand⟩ := readable read written
  refine ⟨result, alike, ?_, fun rest => .inl (operand.starts rest)⟩
  exact (operand.mono fun _ _ => trivial).expression fun _ => id

/-- Expressions between commas are read back up to the symbol that closes them. -/
theorem reads_delimited {closing : Symbol} (first next : Expectation) {items : List Node}
    {write : Node → List TokenKind} (closes : (TokenKind.symbol closing).Ends)
    (each : ∀ item ∈ items, item.RereadFrom (write item)) {read : List Token}
    (written : read.map Token.kind =
      separated (.symbol .comma) (items.map write) ++ [.symbol closing]) :
    ∃ results close, List.Forall₂ Node.Alike results items ∧
      (full.delimited closing first next).Reads read (results, close) fun _ => True := by
  obtain ⟨inner, last, rfl, innerSame, lastSame⟩ := List.map_eq_append_iff.mp written
  obtain ⟨close, rfl⟩ := map_eq_singleton lastSame
  cases items with
  | nil =>
    -- The closing symbol comes at once.
    obtain rfl := List.map_eq_nil_iff.mp innerSame
    have closed : (Rule.token? (.symbol closing)).Reads [⟨.symbol closing, close⟩]
        (some ⟨.symbol closing, close⟩) fun _ => True := Rule.Reads.token? ⟨.symbol closing, close⟩
    exact ⟨[], close, .nil, closed.bind_nil (Rule.Reads.pure _)⟩
  | cons item items =>
    -- The closing symbol comes behind the last expression.
    obtain ⟨one, more, rfl, oneSame, moreSame⟩ := List.map_eq_append_iff.mp innerSame
    obtain ⟨result, alike, expression, starts⟩ := each item List.mem_cons_self one oneSame
    have others : ∀ item ∈ items, ∀ read : List Token,
        read.map Token.kind = .symbol .comma :: write item → ∃ result : Node,
          result.Alike item ∧ (afterComma full.expression).Reads read (some result)
            fun kind => kind.Leaves .logical := by
      intro item member read written
      obtain ⟨comma, rest, rfl, same⟩ := map_eq_cons written
      obtain ⟨result, alike, expression, _⟩ := each item (List.mem_cons_of_mem _ member) rest same
      exact ⟨result, alike, reads_afterComma expression⟩
    obtain ⟨results, allAlike, repeated, meets⟩ := reads_separated
      (Rule.consumes_afterComma shrinks_expression) rfl reads_noComma
      (TokenKind.leaves_of_none (by simp) rfl _) (fun _ ends => ends.leaves _) items others more
      moreSame
    refine ⟨result :: results, close, .cons alike allAlike, ?_⟩
    have absent : (Rule.token? (.symbol closing)).Reads [] none TokenKind.StartsExpression :=
      Rule.Reads.noToken fun kind starts same => closes.stops.2 (same ▸ starts)
    have closed : (Rule.symbol closing next).Reads [⟨.symbol closing, close⟩]
        ⟨.symbol closing, close⟩ fun _ => True := Rule.Reads.token ⟨.symbol closing, close⟩ next
    have behind : (do
        let more ← Rule.many (afterComma full.expression)
        let close ← Rule.symbol closing next
        return (result :: more, close.span) : Rule (List Node × Span)).Reads
        (more ++ [⟨.symbol closing, close⟩]) (result :: results, close) fun _ => True :=
      repeated.bind closed.map fun _ _ => closes
    have all : (do
        let item ← full.expression.orExpected first
        let more ← Rule.many (afterComma full.expression)
        let close ← Rule.symbol closing next
        return (item :: more, close.span) : Rule (List Node × Span)).Reads
        (one ++ (more ++ [⟨.symbol closing, close⟩])) (result :: results, close) fun _ => True := by
      refine expression.orExpected.bind behind fun rest _ => ?_
      rw [List.append_assoc]
      exact meets _ closes
    rw [List.append_assoc]
    refine absent.bind all fun rest _ => ?_
    have start := starts (more ++ [⟨.symbol closing, close⟩] ++ rest)
    rw [← List.append_assoc] at start
    exact start

/-- A list is an atom if its items are read back, however they are written. -/
theorem operand_list {span : Span} {items : List Node} {write : Node → List TokenKind}
    (each : ∀ item ∈ items, item.RereadFrom (write item)) {read : List Token}
    (written : read.map Token.kind = .symbol .leftBracket ::
      separated (.symbol .comma) (items.map write) ++ [.symbol .rightBracket]) :
    ∃ result : Node, result.Alike (.list span items) ∧ Operand (fun _ => True) read result := by
  obtain ⟨bracket, rest, rfl, same⟩ := map_eq_cons written
  obtain ⟨results, close, alike, reads⟩ :=
    reads_delimited .firstElement .nextElement (.inl (by simp)) each same
  refine ⟨.list (bracket.through close) results, .list trivial alike, ?_, fun _ => ?_⟩
  · have inner : (full.list bracket).Reads rest (.list (bracket.through close) results)
        fun _ => True := reads.map
    exact inner
  · simp [TokenKind.StartsAtom]

/-- Arguments between parentheses are read back, however each of them is written. -/
theorem reads_arguments {arguments : List Node} {write : Node → List TokenKind}
    (each : ∀ argument ∈ arguments, argument.RereadFrom (write argument)) {read : List Token}
    (written : read.map Token.kind = .symbol .leftParen ::
      separated (.symbol .comma) (arguments.map write) ++ [.symbol .rightParen]) :
    ∃ results close, List.Forall₂ Node.Alike results arguments ∧
      full.arguments.Reads read (some (results, close)) fun _ => True := by
  obtain ⟨opening, rest, rfl, same⟩ := map_eq_cons written
  obtain ⟨results, close, alike, reads⟩ :=
    reads_delimited .firstArgument .nextArgument (.inl (by simp)) each same
  have present : (Rule.token? (.symbol .leftParen)).Reads [⟨.symbol .leftParen, opening⟩]
      (some ⟨.symbol .leftParen, opening⟩) fun _ => True :=
    Rule.Reads.token? ⟨.symbol .leftParen, opening⟩
  exact ⟨results, close, alike, present.bind reads.map fun _ _ => trivial⟩

/-- A list is read back. -/
theorem readable_list {span : Span} {items : List Node} (each : ∀ item ∈ items, item.Readable) :
    (Node.list span items).Readable := by
  refine Node.ReadableInside.readable rfl (.of_atom fun read written => ?_)
  rw [Node.kinds, Node.writtenEach_eq] at written
  obtain ⟨result, alike, operand⟩ :=
    operand_list (fun item member => (each item member).expression) written
  exact ⟨result, alike, operand.mono fun _ _ => trivial⟩

/-- A call with its arguments is read back. -/
theorem readable_call {span : Span} {callee : Node} {arguments : List Node}
    (callees : callee.Readable) (each : ∀ argument ∈ arguments, argument.Readable) :
    (Node.call span callee arguments).Readable := by
  refine Node.ReadableInside.readable rfl fun read written => ?_
  simp only [Node.kinds, Node.writtenEach_eq, List.append_assoc] at written
  obtain ⟨first, given, rfl, firstSame, givenSame⟩ := List.map_eq_append_iff.mp written
  obtain ⟨calleeResult, calleeAlike, operand⟩ := callees first firstSame
  obtain ⟨results, close, alike, one⟩ :=
    reads_arguments (fun argument member => (each argument member).expression) givenSame
  refine ⟨.call (calleeResult.span.through close) calleeResult results,
    .call trivial calleeAlike alike, ?_⟩
  -- One list of arguments follows the callee, and no other.
  have absent : (Rule.token? (.symbol .leftParen)).Reads [] none TokenKind.Ends :=
    Rule.Reads.noToken fun _ ends => ends.ne
  have none : full.arguments.Reads [] none TokenKind.Ends := absent.bind_nil (Rule.Reads.pure _)
  have repeated := Rule.Reads.many_cons consumes_arguments rfl one
    (Rule.Reads.many_nil consumes_arguments rfl none) fun _ _ => trivial
  rw [List.append_nil] at repeated
  have call : full.call.Reads (first ++ given)
      (.call (calleeResult.span.through close) calleeResult results) TokenKind.Ends :=
    operand.atom.bind repeated.map fun _ _ => trivial
  refine expression_of_operations (fun _ ends => ends.leaves _) .power (fun rest => ?_)
    (reads_alone shrinks_factor call fun _ ends => ends.leaves _)
  rw [List.append_assoc]
  exact operand.starts _

/-- An assignment is read back. -/
theorem readable_assign {span : Span} {name : String} {value : Node} (inner : value.Readable) :
    (Node.assign span name value).Readable := by
  refine Node.ReadableInside.readable rfl fun read written => ?_
  obtain ⟨word, behind, rfl, named⟩ := map_eq_cons written
  obtain ⟨nameSpan, behind, rfl, signed⟩ := map_eq_cons named
  obtain ⟨sign, rest, rfl, same⟩ := map_eq_cons signed
  obtain ⟨result, alike, expression, _⟩ := inner.expression rest same
  refine ⟨.assign (nameSpan.through result.span) name result, .assign trivial alike, ?_⟩
  have ended : full.expression.Reads rest result TokenKind.Ends :=
    expression.mono fun _ ends => ends.leaves _
  have assigned : (Rule.symbol .assign .assign).Reads [⟨.symbol .assign, sign⟩]
      ⟨.symbol .assign, sign⟩ fun _ => True := Rule.Reads.token ⟨.symbol .assign, sign⟩ _
  have identified : (Rule.identifier .identifier).Reads [⟨.identifier name, nameSpan⟩]
      (name, nameSpan) fun _ => True := Rule.Reads.identifier name nameSpan _
  have all : full.assignment.Reads (⟨.identifier name, nameSpan⟩ :: ⟨.symbol .assign, sign⟩ :: rest)
      (.assign (nameSpan.through result.span) name result) TokenKind.Ends :=
    identified.bind (assigned.bind ended.map fun _ _ => trivial) fun _ _ => trivial
  intro others ends
  rw [full_expression]
  exact all others ends

end Sequences

end Scriptlet
