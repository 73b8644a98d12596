import Scriptlet.Token
import Scriptlet.Numeric.Word
import Scriptlet.Syntax.Error

/-! Cutting a program text into tokens, each as long as the text allows. -/

namespace Scriptlet

/-- What the characters at one place of a text are. -/
inductive Lexeme where
  | token (kind : TokenKind)
  | blank
  | fault (cause : SyntaxError.Cause)
deriving DecidableEq

namespace Lexeme

/-- Spaces, tabs, carriage returns and form feeds only separate tokens. -/
def isSpace (c : Char) : Bool :=
  c == ' ' || c == '\t' || c == '\r' || c == '\x0c'

/-- Identifiers go on with letters, digits and underscores. -/
def isIdentifierPart (c : Char) : Bool :=
  c.isAlphanum || c == '_'

/-- The number that digits write before and after a point, as the nearest float. -/
def floatOf (whole fraction : List Char) : Float :=
  Float.ofScientific ((Numeric.readDigits (whole ++ fraction)).getD 0) true fraction.length

/--
A number literal: digits, and a point with more digits if it follows. Beside the lexeme stands how
many characters follow its first one, here and in the readings below.
-/
def number (first : Char) (rest : List Char) : Lexeme × Nat :=
  let digits := rest.takeWhile Char.isDigit
  match rest.drop digits.length with
  | '.' :: more =>
    let fraction := more.takeWhile Char.isDigit
    (.token (.float (floatOf (first :: digits) fraction)), digits.length + 1 + fraction.length)
  | _ =>
    match Numeric.readWord (first :: digits) with
    | some value => (.token (.int value), digits.length)
    | none => (.fault (.integerTooLarge (String.ofList (first :: digits))), digits.length)

/-- A word is a reserved word if it is spelled like one, and an identifier otherwise. -/
def word (first : Char) (rest : List Char) : Lexeme × Nat :=
  let letters := rest.takeWhile isIdentifierPart
  match Keyword.ofSpelling? (first :: letters) with
  | some keyword => (.token (.keyword keyword), letters.length)
  | none => (.token (.identifier (String.ofList (first :: letters))), letters.length)

/-- The character that an escaped character stands for. -/
def unescape : Char → Char
  | 'n' => '\n'
  | 't' => '\t'
  | c => c

/--
The characters of a text literal after its opening quote, and how many characters spell them up to
and with the closing quote; nothing when no quote closes it.
-/
def textBody : List Char → Option (List Char × Nat)
  | [] => none
  | ['\\'] => none
  | '\\' :: c :: rest => (textBody rest).map fun (body, width) => (unescape c :: body, width + 2)
  | '"' :: _ => some ([], 1)
  | c :: rest => (textBody rest).map fun (body, width) => (c :: body, width + 1)

/-- A text literal, or the fault that runs to the end of the program. -/
def text (rest : List Char) : Lexeme × Nat :=
  match textBody rest with
  | some (body, width) => (.token (.text (String.ofList body)), width)
  | none => (.fault .unclosedText, rest.length)

/-- A symbol, or the fault of one character that starts none. -/
def symbol (first : Char) (rest : List Char) : Lexeme × Nat :=
  match Symbol.leading? (first :: rest) with
  | some symbol => (.token (.symbol symbol), symbol.spelling.length - 1)
  | none => (.fault (if first = '!' then .loneExclamation else .illegalCharacter first), 0)

/-- The lexeme that starts with a character, and how many of the characters after it are in it. -/
def read (first : Char) (rest : List Char) : Lexeme × Nat :=
  if first.isDigit then number first rest
  else if first.isAlpha then word first rest
  else if first = '"' then text rest
  else if isSpace first then (.blank, (rest.takeWhile isSpace).length)
  else if first = '#' then (.blank, (rest.takeWhile (· ≠ '\n')).length)
  else if first = '\n' ∨ first = ';' then (.token .newline, 0)
  else symbol first rest

end Lexeme

/-- The tokens of the characters of a source from a place on. -/
def tokensFrom (source : Source) (place : Position) : List Char → Except SyntaxError (List Token)
  | [] => .ok [{ kind := .endOfText, span := { source, start := place, stop := place } }]
  | first :: rest =>
    let (lexeme, more) := Lexeme.read first rest
    let stop := (place.advance first).advanceBy (rest.take more)
    let span : Span := { source, start := place, stop }
    match lexeme with
    | .token kind => (tokensFrom source stop (rest.drop more)).map ({ kind, span } :: ·)
    | .blank => tokensFrom source stop (rest.drop more)
    | .fault cause => .error { cause, span }
termination_by chars => chars.length
decreasing_by all_goals (simp only [List.length_drop, List.length_cons]; omega)

/-- The tokens of a source, closed by the end of the text, or the first lexical fault. -/
def Source.tokens (source : Source) : Except SyntaxError (List Token) :=
  tokensFrom source .start source.text.toList

end Scriptlet
