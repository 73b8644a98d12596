import Scriptlet.Token.Lexer
import Scriptlet.Proofs.Source.LineWalk
import Mathlib.Computability.Language

/-!
The token rules as patterns. What each of them makes of a slice of the text is told apart from how a
text is cut, and so is what it means to cut a text so that every token is as long as it can be.
-/

namespace Scriptlet

open Computability

/-- The texts of one character of a class. -/
def oneOf (inside : Char → Bool) : Language Char :=
  {text | ∃ c, inside c = true ∧ text = [c]}

/-- The texts of a character of one class, and then only characters of another. -/
def run (first more : Char → Bool) : Language Char :=
  oneOf first * (oneOf more)∗

/-- What stands between the quotes of a text literal: plain characters and escaped ones. -/
def literalBody : Language Char :=
  (oneOf (fun c => c != '"' && c != '\\') + {['\\']} * oneOf fun _ => true)∗

/-- The rules by which a text is cut; a text literal may lack its closing quote. -/
inductive Pattern where
  | float | int | text | openText | identifier | keyword (word : Keyword) | symbol (sign : Symbol)
  | exclamation | newline | comment | space

/-- The texts that match a rule. -/
def Pattern.language : Pattern → Language Char
  | .float => run Char.isDigit Char.isDigit * ({['.']} * (oneOf Char.isDigit)∗)
  | .int => run Char.isDigit Char.isDigit
  | .text => {['"']} * (literalBody * {['"']})
  | .openText => {['"']} * (literalBody * (1 + {['\\']}))
  | .identifier => run Char.isAlpha fun c => c.isAlphanum || c == '_'
  | .keyword word => {word.spelling.toList}
  | .symbol sign => {sign.spelling.toList}
  | .exclamation => {['!']}
  | .newline => {['\n']} + {[';']}
  | .comment => run (· == '#') (· != '\n')
  | .space => run Lexeme.isSpace Lexeme.isSpace

/-- The characters that the spelling of a text stands for. -/
def resolve : List Char → List Char
  | [] => []
  | ['\\'] => []
  | '\\' :: c :: rest => Lexeme.unescape c :: resolve rest
  | c :: rest => c :: resolve rest

/-- What a rule makes of a text that matches it; some rules make no token. -/
def Pattern.Reads (slice : List Char) (kind : TokenKind) : Pattern → Prop
  | .float => ∃ whole fraction, slice = whole ++ '.' :: fraction ∧
    kind = .float
      (Float.ofScientific (Nat.ofDigitChars 10 (whole ++ fraction) 0) true fraction.length)
  | .int => ∃ value : Int64, value.toInt = Nat.ofDigitChars 10 slice 0 ∧ kind = .int value
  | .text => kind = .text (String.ofList (resolve slice.tail.dropLast))
  | .identifier => kind = .identifier (String.ofList slice)
  | .keyword word => kind = .keyword word
  | .symbol sign => kind = .symbol sign
  | .newline => kind = .newline
  | .openText | .exclamation | .comment | .space => False

/--
What is skipped before other characters: blanks, and comments that end just before a newline or at
the end of the text.
-/
inductive Skipped (behind : List Char) : List Char → Prop where
  | nil : Skipped behind []
  | space {c : Char} {rest : List Char} (blank : Lexeme.isSpace c = true)
    (more : Skipped behind rest) : Skipped behind (c :: rest)
  | comment {line rest : List Char} (plain : '\n' ∉ line)
    (ends : ∀ c ∈ (rest ++ behind).head?, c = '\n') (more : Skipped behind rest) :
    Skipped behind ('#' :: line ++ rest)

namespace Source

/-- The characters of a source between two places. -/
def between (source : Source) (start stop : Position) : List Char :=
  (source.text.toList.take stop.index).drop start.index

/-- The characters of a source from a place on. -/
def behind (source : Source) (place : Position) : List Char :=
  source.text.toList.drop place.index

/-- A place of a source is the one that its byte offset has there. -/
def Has (source : Source) (place : Position) : Prop :=
  source.position (byteLength (source.text.toList.take place.index)) = place

/-- Nothing but blanks and comments stands between two places of a source. -/
def Skips (source : Source) (start stop : Position) : Prop :=
  start.index ≤ stop.index ∧ Skipped (source.behind stop) (source.between start stop)

/--
A token of a source: a rule reads it from its own slice, no rule matches more of the text from its
start on, and it is a reserved word if its slice is spelled like one.
-/
structure Munches (source : Source) (token : Token) : Prop where
  origin : token.span.source = source
  start : source.Has token.span.start
  stop : source.Has token.span.stop
  nonempty : token.span.start.index < token.span.stop.index
  reading : ∃ pattern : Pattern,
    source.between token.span.start token.span.stop ∈ pattern.language ∧
      pattern.Reads (source.between token.span.start token.span.stop) token.kind
  longest : ∀ pattern : Pattern, ∀ text ∈ pattern.language,
    text <+: source.behind token.span.start →
      text.length ≤ (source.between token.span.start token.span.stop).length
  keyword : ∀ word : Keyword,
    source.between token.span.start token.span.stop = word.spelling.toList →
      token.kind = .keyword word

/--
A source from a place on, cut into tokens up to another place: they follow one another, and only
blanks and comments stand before, between and behind them.
-/
structure Partition (source : Source) (place : Position) (tokens : List Token)
    (finish : Position) : Prop where
  munches : ∀ token ∈ tokens, source.Munches token
  ordered : tokens.Pairwise fun first second => first.span.stop.index ≤ second.span.start.index
  gaps : List.Forall₂ source.Skips
    (place :: tokens.map fun token => token.span.stop)
    ((tokens.map fun token => token.span.start) ++ [finish])

end Source

end Scriptlet
