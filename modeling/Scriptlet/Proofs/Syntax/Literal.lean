import Scriptlet.Proofs.Store.Data
import Scriptlet.Proofs.Syntax.Grouping
import Scriptlet.Proofs.Token.Cut
import Scriptlet.Proofs.Token.Spelling

/-!
Data as program text. The text of a datum is cut into the tokens of the expression that it is: a
literal, a sign before one, or a list of such expressions.
-/

namespace Scriptlet

namespace Datum

mutual

/-- The expression that a datum is written as. -/
def node : Datum → Node
  | .int value _ =>
    if 0 ≤ value.toInt then .int default value else .unary default .negate (.int default (-value))
  | .text letters _ _ => .text default letters
  | .list items => .list default (nodes items)

/-- The expressions of items in a row. -/
def nodes : List Datum → List Node
  | [] => []
  | item :: rest => item.node :: nodes rest

end

/-- In a row each item is the expression that it is alone. -/
theorem nodes_eq (items : List Datum) : nodes items = items.map node := by
  induction items with
  | nil => rfl
  | cons item rest ih => rw [nodes, ih, List.map_cons]

end Datum

/-- The opposite of any integer but the least one. -/
theorem Numeric.toInt_neg_of_ne {value : Int64} (literal : value ≠ Int64.minValue) :
    (-value).toInt = -value.toInt := by
  have least : value.toInt ≠ -2 ^ 63 := by
    rw [← Int64.toInt_minValue]
    exact fun same => literal (Int64.toInt_inj.mp same)
  have low := value.le_toInt
  have high := value.toInt_lt
  rw [Int64.toInt_neg]
  exact Int.bmod_eq_of_le (by omega) (by omega)

namespace Lexeme

/-- A minus sign that no arrow starts with. -/
theorem read_minus {rest : List Char} (other : ∀ c ∈ rest.head?, c ≠ '>') :
    read '-' rest = (.token (.symbol .minus), 0) := by
  cases rest with
  | nil => rfl
  | cons c rest =>
    have apart : ('>' == c) = false := by simpa using Ne.symm (other c rfl)
    show symbol '-' (c :: rest) = _
    simp [symbol, Symbol.leading?, Symbol.all, Symbol.spelling, List.isPrefixOf, apart]
    rfl

/-- A text without quotes and escapes is spelled as it is. -/
theorem textBody_literal {letters : List Char} (noQuote : '"' ∉ letters) (noEscape : '\\' ∉ letters)
    (rest : List Char) :
    textBody (letters ++ '"' :: rest) = some (letters, letters.length + 1) := by
  induction letters with
  | nil => rfl
  | cons c letters ih =>
    rw [List.mem_cons, not_or] at noQuote noEscape
    rw [List.cons_append, textBody_plain (Ne.symm noEscape.1) (Ne.symm noQuote.1),
      ih noQuote.2 noEscape.2]
    rfl

end Lexeme

/-- What stands where no token before it could go on. -/
def Clear (behind : List Char) : Prop :=
  ∀ c ∈ behind.head?, Lexeme.joins c = false

section Pieces

variable {behind : List Char}

/-- The digits of an integer are cut into the integer. -/
theorem cut_digits {value : Int64} (unsigned : 0 ≤ value.toInt) (clear : Clear behind) :
    Cut behind (Nat.toDigits 10 value.toInt.toNat) [.int value] := by
  obtain ⟨first, rest, digits⟩ :=
    List.exists_cons_of_ne_nil (Nat.toDigits_ne_nil (b := 10) (n := value.toInt.toNat))
  have reads := (Lexeme.read_toDigits unsigned digits []).2
  rw [digits, ← List.append_nil rest]
  exact .token (Lexeme.read_endsAlike (fun c head => .inl (clear c head)) reads) .nil

/-- An integer is cut into its digits, behind a sign if it has one. -/
theorem cut_int {value : Int64} (literal : value ≠ Int64.minValue) (clear : Clear behind) :
    Cut behind (toString value.toInt).toList (Datum.int value literal).node.shown := by
  rw [Int.toString_eq_repr, Int.repr_eq_if, Datum.node]
  -- Negative integers are written with a sign, which is a token of its own.
  by_cases unsigned : 0 ≤ value.toInt
  · rw [if_pos unsigned, if_pos unsigned, Nat.toList_repr]
    exact cut_digits unsigned clear
  · have opposite := Numeric.toInt_neg_of_ne literal
    rw [if_neg unsigned, if_neg unsigned, String.toList_append, Nat.toList_repr, ← opposite]
    obtain ⟨first, rest, digits⟩ :=
      List.exists_cons_of_ne_nil (Nat.toDigits_ne_nil (b := 10) (n := (-value).toInt.toNat))
    have unsigned' : 0 ≤ (-value).toInt := by omega
    refine .single (Lexeme.read_minus fun c head => ?_) (cut_digits unsigned' clear)
    -- No digit goes on with the sign.
    rw [digits] at head
    obtain rfl : first = c := Option.some.inj head
    have digit : first.isDigit = true := by
      refine Nat.isDigit_of_mem_toDigits (b := 10) (n := (-value).toInt.toNat) (by decide)
        (by decide) ?_
      rw [digits]
      exact List.mem_cons_self
    rintro rfl
    cases digit

/-- A text literal is cut into the text. -/
theorem cut_text {letters : String} (noQuote : '"' ∉ letters.toList)
    (noEscape : '\\' ∉ letters.toList) :
    Cut behind ("\"" ++ letters ++ "\"").toList [.text letters] := by
  have written : ("\"" ++ letters ++ "\"").toList = '"' :: ((letters.toList ++ ['"']) ++ []) := by
    simp
  rw [written]
  refine .token ?_ .nil
  -- Without escapes the text between the quotes is the body of the literal.
  have closed := Lexeme.textBody_literal noQuote noEscape behind
  show Lexeme.text (letters.toList ++ ['"'] ++ behind) = _
  rw [List.append_assoc, List.singleton_append, Lexeme.text, closed, List.length_append]
  simp

/-- Parts in a row, with the same part before each but the first. -/
theorem intercalate_cons {α : Type} (part first : List α) (more : List (List α)) :
    part.intercalate (first :: more) = first ++ more.flatMap (part ++ ·) := by
  -- The induction goes along the parts behind the first one.
  induction more generalizing first with
  | nil => simp [List.intercalate]
  | cons second more ih =>
    rw [List.intercalate_cons_cons, ih, List.flatMap_cons, List.append_assoc, List.append_assoc]

/-- No token goes on with a comma. -/
theorem clear_more (items : List (List Char)) (clear : Clear behind) :
    Clear (items.flatMap ([',', ' '] ++ ·) ++ behind) := by
  cases items with
  | nil => exact clear
  | cons item items =>
    intro c head
    obtain rfl : ',' = c := Option.some.inj head
    decide

/-- Items behind commas are cut item by item. -/
theorem cut_more {items : List (List Char × List TokenKind)}
    (each : ∀ item ∈ items, ∀ behind, Clear behind → Cut behind item.1 item.2)
    (clear : Clear behind) :
    Cut behind ((items.map Prod.fst).flatMap ([',', ' '] ++ ·))
      ((items.map Prod.snd).flatMap (.symbol .comma :: ·)) := by
  -- Each item comes behind a comma and a blank, and before another comma or the end.
  induction items with
  | nil => exact .nil
  | cons item items ih =>
    rw [List.forall_mem_cons] at each
    have one := (each.1 _ (clear_more (items.map Prod.fst) clear)).append (ih each.2)
    exact .single rfl (.space rfl one)

/-- Items with commas between them are cut item by item. -/
theorem cut_items {items : List (List Char × List TokenKind)}
    (each : ∀ item ∈ items, ∀ behind, Clear behind → Cut behind item.1 item.2)
    (clear : Clear behind) :
    Cut behind ([',', ' '].intercalate (items.map Prod.fst))
      (separated (.symbol .comma) (items.map Prod.snd)) := by
  cases items with
  | nil => exact .nil
  | cons item items =>
    rw [List.forall_mem_cons] at each
    rw [List.map_cons, List.map_cons, intercalate_cons, separated]
    exact (each.1 _ (clear_more (items.map Prod.fst) clear)).append (cut_more each.2 clear)

/-- The text of a datum is cut into the tokens of its expression. -/
theorem Datum.cut_written (datum : Datum) : ∀ behind, Clear behind →
    Cut behind datum.written.toList datum.node.shown := by
  -- The induction is on the datum; whatever follows it must not go on with its last token.
  induction datum using Datum.induction with
  | int value literal => exact fun behind => cut_int literal
  | text letters noQuote noEscape => exact fun behind _ => cut_text noQuote noEscape
  | list items ih =>
    intro behind clear
    have each : ∀ item ∈ items.map fun item => (item.written.toList, item.node.shown),
        ∀ behind, Clear behind → Cut behind item.1 item.2 := by
      intro item member
      obtain ⟨datum, inside, rfl⟩ := List.mem_map.mp member
      exact ih datum inside
    have closed : Clear (']' :: behind) := by
      intro c head
      obtain rfl : ']' = c := Option.some.inj head
      decide
    have inner := cut_items each closed
    have close : Cut behind [']'] [.symbol .rightBracket] := .single rfl .nil
    have chars : (Datum.list items).written.toList = '[' ::
        ([',', ' '].intercalate (items.map fun item => item.written.toList) ++ [']']) := by
      rw [Datum.written, Datum.writtenEach_eq, String.toList_append, String.toList_append,
        String.toList_intercalate, List.map_map]
      rfl
    have kinds : (Datum.list items).node.shown = .symbol .leftBracket ::
        (separated (.symbol .comma) (items.map fun item => item.node.shown) ++
          [.symbol .rightBracket]) := by
      rw [Datum.node, Node.shown, Node.shownEach_eq, Datum.nodes_eq, List.map_map]
      rfl
    rw [List.map_map, List.map_map] at inner
    rw [chars, kinds]
    exact .single rfl (Cut.append inner close)

end Pieces

/-- The text of a datum has the tokens of its expression. -/
theorem Datum.hasKinds (datum : Datum) :
    HasKinds datum.written.toList (datum.node.shown ++ [.endOfText]) := by
  have ended : HasKinds [] [.endOfText] := fun source place => ⟨_, by rw [tokensFrom], rfl⟩
  have whole := (datum.cut_written [] (by simp [Clear])).hasKinds ended
  rwa [List.append_nil] at whole

end Scriptlet
