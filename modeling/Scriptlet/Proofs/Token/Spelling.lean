import Scriptlet.Proofs.Numeric.Written
import Scriptlet.Proofs.Token.Lexeme
import Mathlib.Data.List.Forall2

/-!
Tokens written as text. Integers, words and symbols that are spelled with a blank behind each of
them are read back one by one.
-/

namespace Scriptlet

/-- How a token is spelled that is an integer without a sign, a reserved word or a symbol. -/
inductive TokenKind.SpelledAs : TokenKind → List Char → Prop where
  | int {value : Int64} (unsigned : 0 ≤ value.toInt) :
    TokenKind.SpelledAs (.int value) (Nat.toDigits 10 value.toInt.toNat)
  | keyword (word : Keyword) : TokenKind.SpelledAs (.keyword word) word.spelling.toList
  | symbol (symbol : Symbol) : TokenKind.SpelledAs (.symbol symbol) symbol.spelling.toList

/-- Pieces of a text with a blank behind each of them. -/
def spaced (pieces : List (List Char)) : List Char :=
  pieces.flatMap (· ++ [' '])

namespace Numeric

/-- An integer without a sign is read from its digits. -/
theorem readWord_toDigits {value : Int64} (unsigned : 0 ≤ value.toInt) :
    readWord (Nat.toDigits 10 value.toInt.toNat) = some value := by
  have written : Writes (Nat.toDigits 10 value.toInt.toNat) value.toInt.toNat :=
    .unsigned ⟨Nat.toDigits_ne_nil,
      fun c member => Nat.isDigit_of_mem_toDigits (by decide) (by decide) member,
      Nat.ofDigitChars_ten_toDigits⟩
  rw [Int.toNat_of_nonneg unsigned] at written
  exact readWord_eq_some_iff.mpr written

end Numeric

namespace Lexeme

/-- A digit separates no tokens. -/
theorem isSpace_of_isDigit {c : Char} (digit : c.isDigit = true) : isSpace c = false := by
  unfold isSpace
  simp only [Bool.or_eq_false_iff, beq_eq_false_iff_ne]
  refine ⟨⟨⟨?_, ?_⟩, ?_⟩, ?_⟩ <;> (rintro rfl; cases digit)

/-- The digits of an integer before a blank are read as the integer. -/
theorem read_toDigits {value : Int64} (unsigned : 0 ≤ value.toInt) {first : Char}
    {rest : List Char} (digits : Nat.toDigits 10 value.toInt.toNat = first :: rest)
    (more : List Char) :
    isSpace first = false ∧
      read first (rest ++ ' ' :: more) = (.token (.int value), rest.length) := by
  have all : ∀ c ∈ first :: rest, c.isDigit = true := by
    rw [← digits]
    exact fun c member => Nat.isDigit_of_mem_toDigits (by decide) (by decide) member
  rw [List.forall_mem_cons] at all
  refine ⟨isSpace_of_isDigit all.1, ?_⟩
  -- The digits reach up to the blank, which is no point.
  have stops : ∀ c ∈ (' ' :: more).head?, c.isDigit = false ∧ c ≠ '.' := by simp
  have written := Numeric.readWord_toDigits unsigned
  rw [digits] at written
  rw [read, if_pos all.1, (NumberRead.integer all.2 stops written).eq]

/-- A token that is spelled before a blank is read, and nothing else is. -/
theorem read_spelledAs {kind : TokenKind} {chars : List Char} (spelled : kind.SpelledAs chars)
    (more : List Char) :
    ∃ first rest, chars = first :: rest ∧ isSpace first = false ∧
      read first (rest ++ ' ' :: more) = (.token kind, rest.length) := by
  cases spelled with
  | @int value unsigned =>
    obtain ⟨first, rest, digits⟩ :=
      List.exists_cons_of_ne_nil (Nat.toDigits_ne_nil (b := 10) (n := value.toInt.toNat))
    exact ⟨first, rest, digits, read_toDigits unsigned digits more⟩
  | keyword word => cases word <;> exact ⟨_, _, rfl, rfl, rfl⟩
  | symbol symbol => cases symbol <;> exact ⟨_, _, rfl, rfl, rfl⟩

end Lexeme

/-- Pieces that spell tokens start with no blank. -/
theorem takeWhile_isSpace_spaced {kinds : List TokenKind} {pieces : List (List Char)}
    (spelled : List.Forall₂ TokenKind.SpelledAs kinds pieces) :
    (spaced pieces).takeWhile Lexeme.isSpace = [] := by
  cases spelled with
  | nil => rfl
  | cons one others =>
    obtain ⟨first, rest, rfl, solid, -⟩ := Lexeme.read_spelledAs one []
    simp [spaced, solid]

/-- Tokens that are spelled with blanks behind them are the tokens of the text. -/
theorem tokensFrom_spaced (source : Source) {kinds : List TokenKind} {pieces : List (List Char)}
    (spelled : List.Forall₂ TokenKind.SpelledAs kinds pieces) (place : Position) :
    ∃ tokens, tokensFrom source place (spaced pieces) = .ok tokens ∧
      tokens.map Token.kind = kinds ++ [.endOfText] := by
  induction spelled generalizing place with
  | nil => exact ⟨_, by rw [spaced, List.flatMap_nil, tokensFrom], rfl⟩
  | @cons kind piece kinds pieces one others ih =>
    -- Each piece is one token, and the blank behind it is none.
    obtain ⟨first, rest, rfl, -, reads⟩ := Lexeme.read_spelledAs one (spaced pieces)
    have text : spaced ((first :: rest) :: pieces) = first :: (rest ++ ' ' :: spaced pieces) := by
      simp [spaced]
    have blank : Lexeme.read ' ' (spaced pieces) = (.blank, 0) := by
      show (Lexeme.blank, ((spaced pieces).takeWhile Lexeme.isSpace).length) = (.blank, 0)
      rw [takeWhile_isSpace_spaced others]
      rfl
    rw [text, tokensFrom]
    simp only [reads, List.drop_left]
    rw [tokensFrom]
    simp only [blank, List.drop_zero]
    obtain ⟨tokens, cut, same⟩ := ih (((place.advance first).advanceBy
      ((rest ++ ' ' :: spaced pieces).take rest.length)).advance ' ' |>.advanceBy
        ((spaced pieces).take 0))
    exact ⟨_, by rw [cut]; rfl, by simp [same]⟩

end Scriptlet
