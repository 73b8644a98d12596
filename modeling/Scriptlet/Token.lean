import Scriptlet.Source

/-! Tokens: the reserved words, the symbols, and what a program text is a sequence of. -/

namespace Scriptlet

/-- The reserved words. -/
inductive Keyword where
  | varWord | andWord | orWord | notWord | ifWord | thenWord | elifWord | elseWord | forWord
  | toWord | stepWord | whileWord | funWord | endWord | returnWord | continueWord | breakWord
deriving DecidableEq, Repr

namespace Keyword

/-- Every reserved word, once. -/
def all : List Keyword :=
  [.varWord, .andWord, .orWord, .notWord, .ifWord, .thenWord, .elifWord, .elseWord, .forWord,
   .toWord, .stepWord, .whileWord, .funWord, .endWord, .returnWord, .continueWord, .breakWord]

/-- Reserved words are written in capitals. -/
def spelling : Keyword → String
  | .varWord => "VAR"
  | .andWord => "AND"
  | .orWord => "OR"
  | .notWord => "NOT"
  | .ifWord => "IF"
  | .thenWord => "THEN"
  | .elifWord => "ELIF"
  | .elseWord => "ELSE"
  | .forWord => "FOR"
  | .toWord => "TO"
  | .stepWord => "STEP"
  | .whileWord => "WHILE"
  | .funWord => "FUN"
  | .endWord => "END"
  | .returnWord => "RETURN"
  | .continueWord => "CONTINUE"
  | .breakWord => "BREAK"

/-- The reserved word with a given spelling. -/
def ofSpelling? (word : List Char) : Option Keyword :=
  all.find? fun keyword => keyword.spelling.toList = word

/-- The list of all reserved words leaves none out. -/
theorem mem_all (keyword : Keyword) : keyword ∈ all := by
  -- One case for each word.
  cases keyword <;> decide

end Keyword

/-- The operators and the punctuation. -/
inductive Symbol where
  | plus | minus | star | slash | percent | caret | leftParen | rightParen | leftBracket
  | rightBracket | comma | arrow | assign | equal | notEqual | less | greater | lessEqual
  | greaterEqual
deriving DecidableEq, Repr

namespace Symbol

/-- Every symbol once, and each one before the symbols that its own text starts with. -/
def all : List Symbol :=
  [.arrow, .equal, .notEqual, .lessEqual, .greaterEqual, .plus, .minus, .star, .slash, .percent,
   .caret, .leftParen, .rightParen, .leftBracket, .rightBracket, .comma, .assign, .less, .greater]

/-- The text of a symbol. -/
def spelling : Symbol → String
  | .plus => "+"
  | .minus => "-"
  | .star => "*"
  | .slash => "/"
  | .percent => "%"
  | .caret => "^"
  | .leftParen => "("
  | .rightParen => ")"
  | .leftBracket => "["
  | .rightBracket => "]"
  | .comma => ","
  | .arrow => "->"
  | .assign => "="
  | .equal => "=="
  | .notEqual => "!="
  | .less => "<"
  | .greater => ">"
  | .lessEqual => "<="
  | .greaterEqual => ">="

/-- The longest symbol that a text starts with. -/
def leading? (text : List Char) : Option Symbol :=
  all.find? fun symbol => symbol.spelling.toList.isPrefixOf text

/-- The list of all symbols leaves none out. -/
theorem mem_all (symbol : Symbol) : symbol ∈ all := by
  -- One case for each symbol.
  cases symbol <;> decide

end Symbol

/--
What a token is; a text carries its characters with all escapes resolved. A bang of its own, a text
that is not closed, a comment and blanks have kinds too, but they never stand in what a text is read
into: the first two are problems, and the others are passed over.
-/
inductive TokenKind where
  | int (value : Int64)
  | float (value : Float)
  | text (value : String)
  | identifier (name : String)
  | keyword (word : Keyword)
  | symbol (symbol : Symbol)
  | unterminatedText
  | bang
  | newline
  | comment
  | ignored
  | endOfText
deriving DecidableEq

/-- A token and the range it was read from. -/
structure Token where
  kind : TokenKind
  span : Span
deriving DecidableEq

end Scriptlet
