import Scriptlet.Proofs.Syntax.Blocks

/-! Parsing undoes printing: every program that is written down is parsed to itself, up to ranges. -/

namespace Scriptlet

open Grammar

section Functions

/-- The name of a function and the parenthesis behind it are read back. -/
theorem reads_functionName {name : Option String} {read : List Token}
    (written : read.map Token.kind = name.toList.map .identifier ++ [.symbol .leftParen]) :
    functionName.Reads read name fun _ => True := by
  intro rest _
  cases name with
  | none =>
    obtain ⟨opening, rfl⟩ := map_eq_singleton written
    rfl
  | some name =>
    obtain ⟨nameSpan, _, rfl, afterName⟩ := map_eq_cons written
    obtain ⟨opening, rfl⟩ := map_eq_singleton afterName
    rfl

/-- The parameters of a function and the parenthesis behind them are read back. -/
theorem reads_parameters {names : List String} {read : List Token}
    (written : read.map Token.kind =
      separated (.symbol .comma) (names.map fun name => [.identifier name]) ++
        [.symbol .rightParen]) : parameters.Reads read names fun _ => True := by
  obtain ⟨inner, last, rfl, innerSame, lastSame⟩ := List.map_eq_append_iff.mp written
  obtain ⟨close, rfl⟩ := map_eq_singleton lastSame
  cases names with
  | nil =>
    obtain rfl := List.map_eq_nil_iff.mp innerSame
    exact fun _ _ => rfl
  | cons first names =>
    obtain ⟨firstSpan, more, rfl, moreSame⟩ := map_eq_cons innerSame
    -- Each further name stands behind a comma, and is read back there.
    have each : ∀ name ∈ names, ∀ read : List Token,
        read.map Token.kind = .symbol .comma :: [.identifier name] → ∃ result : String × Span,
          result.1 = name ∧ (afterComma (Rule.identifier .identifier)).Reads read (some result)
            fun _ => True := by
      intro name _ read written
      obtain ⟨comma, _, rfl, afterComma⟩ := map_eq_cons written
      obtain ⟨span, rfl⟩ := map_eq_singleton afterComma
      exact ⟨(name, span), rfl, reads_afterComma (Rule.Reads.identifier name span _)⟩
    obtain ⟨results, same, repeated, _⟩ := reads_separated
      (Rule.consumes_afterComma (Rule.shrinks_identifier _)) rfl reads_noComma trivial
      (fun _ _ => trivial) names each more moreSame
    -- The rule drops the places of the names.
    have told : results.map Prod.fst = names := by
      have equal := List.forall₂_map_left_iff.mpr same
      rwa [List.forall₂_eq_eq_eq] at equal
    have closed : (Rule.symbol .rightParen .nextArgument).Reads [⟨.symbol .rightParen, close⟩]
        ⟨.symbol .rightParen, close⟩ fun _ => True :=
      Rule.Reads.token ⟨.symbol .rightParen, close⟩ _
    have behind : (do
        let more ← Rule.many (afterComma (Rule.identifier .identifier))
        let _ ← Rule.symbol .rightParen .nextArgument
        return first :: more.map Prod.fst : Rule (List String)).Reads
        (more ++ [⟨.symbol .rightParen, close⟩]) (first :: results.map Prod.fst) fun _ => True :=
      repeated.bind closed.map fun _ _ => .inl (by simp)
    rw [told] at behind
    exact behind

variable {span : Span} {name : Option String} {names : List String} {body : Node}

/-- The body of a function is read back in its form. -/
theorem readable_function {form : BodyForm} (bodies : ∀ read : List Token,
    read.map Token.kind = form.arrow ++ (body.written ++ form.closing) →
      ∃ (result : Node) (stop : Span), result.Alike body ∧
        full.functionBody.Reads read (result, form, stop) TokenKind.Ends) :
    (Node.function span name names body form).Readable := by
  refine Node.ReadableInside.readable rfl (.of_atom fun read written => ?_)
  have grouped : read.map Token.kind = .keyword .funWord ::
      ((name.toList.map .identifier ++ [.symbol .leftParen]) ++
        ((separated (.symbol .comma) (names.map fun name => [.identifier name]) ++
          [.symbol .rightParen]) ++ (form.arrow ++ (body.written ++ form.closing)))) := by
    simpa only [Node.kinds, Node.written, List.append_assoc, List.cons_append] using written
  obtain ⟨word, _, rfl, afterWord⟩ := map_eq_cons grouped
  obtain ⟨called, _, rfl, calledSame, afterName⟩ := List.map_eq_append_iff.mp afterWord
  obtain ⟨listed, rest, rfl, listedSame, afterList⟩ := List.map_eq_append_iff.mp afterName
  obtain ⟨result, stop, alike, reads⟩ := bodies rest afterList
  have whole : (full.function word).Reads (called ++ (listed ++ rest))
      (.function (word.through stop) name names result form) TokenKind.Ends :=
    (reads_functionName calledSame).bind
      ((reads_parameters listedSame).bind reads.map fun _ _ => trivial) fun _ _ => trivial
  exact ⟨_, .function trivial alike, whole, fun _ => by simp [TokenKind.StartsAtom]⟩

/-- A function that computes an expression is read back. -/
theorem readable_arrow (inner : body.Readable) :
    (Node.function span name names body .inline).Readable := by
  refine readable_function fun read written => ?_
  obtain ⟨arrow, rest, rfl, afterArrow⟩ := map_eq_cons written
  rw [BodyForm.closing, List.append_nil] at afterArrow
  obtain ⟨result, alike, reads⟩ := inner.ended afterArrow
  have present : (Rule.token? (.symbol .arrow)).Reads [⟨.symbol .arrow, arrow⟩]
      (some ⟨.symbol .arrow, arrow⟩) fun _ => True := Rule.Reads.token? ⟨.symbol .arrow, arrow⟩
  exact ⟨result, result.span, alike, present.bind reads.map fun _ _ => trivial⟩

/-- A function with a block is read back. -/
theorem readable_procedure (bodies : body.ReadableBlock) :
    (Node.function span name names body .block).Readable := by
  refine readable_function fun read written => ?_
  change read.map Token.kind = .newline :: (body.written ++ [.keyword .endWord]) at written
  obtain ⟨newline, _, rfl, afterNewline⟩ := map_eq_cons written
  obtain ⟨inner, last, rfl, innerSame, lastSame⟩ := List.map_eq_append_iff.mp afterNewline
  obtain ⟨close, rfl⟩ := map_eq_singleton lastSame
  obtain ⟨result, alike, reads⟩ := bodies inner innerSame
  have absent : (Rule.token? (.symbol .arrow)).Reads [] none (· = .newline) :=
    Rule.Reads.noToken (by rintro _ rfl; simp)
  have started : (Rule.token .newline .functionBody).Reads [⟨.newline, newline⟩]
      ⟨.newline, newline⟩ fun _ => True := Rule.Reads.token ⟨.newline, newline⟩ _
  have ended : TokenKind.Closes (.keyword .endWord) := by simp
  have whole : (do
      let _ ← Rule.token .newline .functionBody
      let body ← full.statements
      let close ← Rule.keyword .endWord .endWord
      return (body, .block, close.span) : Rule (Node × BodyForm × Span)).Reads
      (⟨.newline, newline⟩ :: (inner ++ [⟨.keyword .endWord, close⟩])) (result, .block, close)
      TokenKind.Ends :=
    started.bind (reads.bind ((reads_keyword .endWord .endWord close).mono fun _ _ => trivial).map
      fun _ _ => BodyForm.Final.stops ended) fun _ _ => trivial
  exact ⟨result, close, alike, absent.bind whole fun _ _ => rfl⟩

end Functions

mutual

/-- Every expression is read back. -/
theorem Node.IsExpression.readable {node : Node} : node.IsExpression → node.Readable
  | .int => readable_int
  | .float => readable_float
  | .text => readable_text
  | .list each => readable_list fun item member => (each item member).readable
  | .reference => readable_reference
  | .assign inner => readable_assign inner.readable
  | .binary lefts rights => readable_binary lefts.readable rights.readable
  | .unary inner => readable_unary inner.readable
  | .conditional conditions bodies others =>
    readable_conditional conditions.readable bodies.readable others.readable
  | .forLoop firsts bounds steps bodies =>
    readable_forLoop firsts.readable bounds.readable (fun found member =>
      (steps found member).readable) bodies.readable
  | .whileLoop conditions bodies => readable_whileLoop conditions.readable bodies.readable
  | .arrow inner => readable_arrow inner.readable
  | .function bodies => readable_procedure bodies.readable
  | .call callees each => readable_call callees.readable fun argument member =>
    (each argument member).readable

/-- Every statement is read back. -/
theorem Node.IsStatement.readable {node : Node} : node.IsStatement → node.ReadableStatement
  | .expression inner => inner.readable.statement
  | .returning values => readable_returning fun found member => (values found member).readable
  | .continuing => readable_continuing
  | .breaking => readable_breaking

/-- Every block is read back. -/
theorem Node.IsBlock.readable {node : Node} : node.IsBlock → node.ReadableBlock
  | .sequence nonempty each => readable_sequence nonempty fun statement member =>
    (each statement member).readable

/-- Every body is read back. -/
theorem Node.IsBody.readable {form : BodyForm} {node : Node} :
    node.IsBody form → node.ReadableBody form
  | .inline inner => inner.readable.inline
  | .block inner => inner.readable.block

/-- Everything that may stand behind a first branch is read back. -/
theorem Choices.IsRest.readable {choices : Choices} : choices.IsRest → choices.ReadableRest
  | .none => readableRest_none
  | .otherwise bodies => readableRest_otherwise bodies.readable
  | .test conditions bodies others =>
    readableRest_test conditions.readable bodies.readable others.readable

end

/--
Whatever program is written down, with whatever ranges its tokens have, is parsed to a program that
differs from it in its ranges only.
-/
theorem parse_written {program : Node} (block : program.IsBlock) {tokens : List Token}
    (written : tokens.map Token.kind = program.written ++ [.endOfText]) :
    ∃ result, parse tokens = .ok result ∧ result.Similar (fun _ _ => True) program := by
  obtain ⟨read, last, rfl, readSame, lastSame⟩ := List.map_eq_append_iff.mp written
  obtain ⟨stop, rfl⟩ := map_eq_singleton lastSame
  obtain ⟨result, alike, reads⟩ := block.readable read readSame
  have stops : BodyForm.block.Stops .endOfText :=
    BodyForm.Final.stops BodyForm.block.final_endOfText
  have parsed : parseProgram (read ++ [⟨.endOfText, stop⟩]) = .ok (result, []) := by
    rw [parseProgram_eq, Rule.bind_apply, reads [⟨.endOfText, stop⟩] stops]
    rfl
  exact ⟨result, by simp only [parse, parsed], alike⟩

/-- A conditional of one statement and one block without any other case, and a call behind it. -/
def choosing : Node :=
  .sequence default [
    .conditional default (.test (.reference default "x") (.returning default none) .inline
      (.test (.unary default .not (.reference default "x"))
        (.sequence default [.breaking default, .int default 1]) .block .none)),
    .call default (.reference default "f") [.list default []]]

/-- The conditional and the call are parsed to themselves. -/
theorem parse_written_choosing :
    choosing.IsBlock ∧ ∃ result,
      parse ((choosing.written ++ [TokenKind.endOfText]).map fun kind => ⟨kind, default⟩) =
          .ok result ∧
        result.Similar (fun _ _ => True) choosing := by
  have inner : Node.IsBlock (.sequence default [.breaking default, .int default 1]) := by
    refine .sequence (by simp) ?_
    simp only [List.forall_mem_cons]
    exact ⟨.breaking, .expression .int, by simp⟩
  have block : choosing.IsBlock := by
    refine .sequence (by simp) ?_
    simp only [List.forall_mem_cons]
    refine ⟨.expression (.conditional .reference (.inline (.returning (by simp))) ?_),
      .expression (.call .reference ?_), by simp⟩
    · exact .test (.unary .reference) (.block inner) .none
    · simp only [List.forall_mem_cons]
      exact ⟨.list (by simp), by simp⟩
  refine ⟨block, parse_written block ?_⟩
  rw [List.map_map]
  exact List.map_id _

end Scriptlet
