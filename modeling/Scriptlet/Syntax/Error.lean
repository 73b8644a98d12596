import Scriptlet.Source.Excerpt

/-! What can be wrong with a program text before any of it runs. -/

namespace Scriptlet

/-- What the grammar would have accepted at a token that it rejects. -/
inductive Expectation where
  | statement
  | expression
  | comparison
  | atom
  | firstArgument
  | firstElement
  | nextArgument
  | nextElement
  | closingParenthesis
  | identifier
  | assign
  | thenWord
  | toWord
  | endWord
  | nextBranch
  | parameters
  | identifierOrParameters
  | firstParameter
  | functionBody
  | nothing
deriving DecidableEq, Repr

/-- The words in which a report says what was expected. -/
def Expectation.text : Expectation → String
  | .statement =>
    "Expected 'RETURN', 'CONTINUE', 'BREAK', 'VAR', 'IF', 'FOR', 'WHILE', 'FUN', int, float, " ++
      "identifier, '+', '-', '(', '[' or 'NOT'"
  | .expression =>
    "Expected 'VAR', 'IF', 'FOR', 'WHILE', 'FUN', int, float, identifier, '+', '-', '(', '[' or " ++
      "'NOT'"
  | .comparison =>
    "Expected int, float, identifier, '+', '-', '(', '[', 'IF', 'FOR', 'WHILE', 'FUN' or 'NOT'"
  | .atom => "Expected int, float, identifier, '+', '-', '(', '[', 'IF', 'FOR', 'WHILE' or 'FUN'"
  | .firstArgument =>
    "Expected ')', 'VAR', 'IF', 'FOR', 'WHILE', 'FUN', int, float, identifier, '+', '-', '(', " ++
      "'[' or 'NOT'"
  | .firstElement =>
    "Expected ']', 'VAR', 'IF', 'FOR', 'WHILE', 'FUN', int, float, identifier, '+', '-', '(', " ++
      "'[' or 'NOT'"
  | .nextArgument => "Expected ',' or ')'"
  | .nextElement => "Expected ',' or ']'"
  | .closingParenthesis => "Expected ')'"
  | .identifier => "Expected identifier"
  | .assign => "Expected '='"
  | .thenWord => "Expected 'THEN'"
  | .toWord => "Expected 'TO'"
  | .endWord => "Expected 'END'"
  | .nextBranch => "Expected 'END', 'ELIF' or 'ELSE'"
  | .parameters => "Expected '('"
  | .identifierOrParameters => "Expected identifier or '('"
  | .firstParameter => "Expected identifier or ')'"
  | .functionBody => "Expected '->' or NEWLINE"
  | .nothing => "Token cannot appear after previous tokens"

/-- Why a text is no program. -/
inductive SyntaxError.Cause where
  /-- A character that no token starts with. -/
  | illegalCharacter (c : Char)
  /-- An exclamation mark that no equals sign follows. -/
  | loneExclamation
  /-- A text literal that is never closed. -/
  | unclosedText
  /-- An integer literal that does not fit into 64 bits. -/
  | integerTooLarge (digits : String)
  /-- A token at which no program can go on. -/
  | unexpected (expectation : Expectation)
deriving DecidableEq, Repr

namespace SyntaxError.Cause

/-- The kind of error that a report opens with. -/
def heading : SyntaxError.Cause → String
  | .illegalCharacter _ => "Illegal Character"
  | .loneExclamation | .unclosedText => "Expected Character"
  | .integerTooLarge _ => "Literal Too Large"
  | .unexpected _ => "Invalid Syntax"

/-- What a report says after the kind of error. -/
def details : SyntaxError.Cause → String
  | .illegalCharacter c => s!"'{c}'"
  | .loneExclamation => "'=' (after '!')"
  | .unclosedText => "'\"' to close string literal"
  | .integerTooLarge digits => s!"'{digits}' does not fit in a 64-bit integer"
  | .unexpected expectation => expectation.text

end SyntaxError.Cause

/-- The first fault of a program text, and where it is. -/
structure SyntaxError where
  cause : SyntaxError.Cause
  span : Span
deriving DecidableEq, Repr

namespace SyntaxError

/-- The error on one line. -/
def message (error : SyntaxError) : String :=
  s!"{error.cause.heading}: {error.cause.details}"

/-- The error with the place and the line it is about. -/
def report (error : SyntaxError) : String :=
  s!"{error.message}\n{error.span.located}"

end SyntaxError

end Scriptlet
