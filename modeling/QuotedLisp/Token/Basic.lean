import QuotedLisp.Bracket

/-!
# Tokens

A token is a piece of source text with the class it belongs to. White space and comments have
classes of their own, although the lexer drops them, so that a token list may hold them.
-/

namespace QuotedLisp

/-- The classes of lexemes, in the order in which a tie between two of them is decided. -/
inductive TokenClass where
  | whitespace
  | comment
  | opening
  | closing
  | number
  | string
  | identifier
deriving DecidableEq, Repr

/-- Every class, the ones that win ties first. -/
def TokenClass.all : List TokenClass :=
  [.whitespace, .comment, .opening, .closing, .number, .string, .identifier]

/-- A class and the exact source text. -/
structure Token where
  kind : TokenClass
  text : String
deriving DecidableEq, Repr

/-- The kind of list that a bracket token begins or ends; none for other tokens, and none for a
text that is not a single bracket of the right direction. -/
def Token.bracket? (t : Token) : Option Bracket :=
  match t.kind, t.text.toList with
  | .opening, [c] => Bracket.ofOpenGlyph? c
  | .closing, [c] => Bracket.ofCloseGlyph? c
  | _, _ => none

end QuotedLisp
