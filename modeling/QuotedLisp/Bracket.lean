/-!
# Brackets

The language has two kinds of list, told apart by their brackets: a round list is applied when it
is evaluated, and a curly list is quoted, that is evaluates to itself.
-/

namespace QuotedLisp

/-- The two kinds of bracket. -/
inductive Bracket where
  | round
  | curly
deriving DecidableEq, Repr

namespace Bracket

/-- The glyph that opens a list. -/
def openGlyph : Bracket → Char
  | .round => '('
  | .curly => '\x7b'

/-- The glyph that closes a list. -/
def closeGlyph : Bracket → Char
  | .round => ')'
  | .curly => '\x7d'

/-- The bracket that a glyph opens. -/
def ofOpenGlyph? (c : Char) : Option Bracket :=
  if c = openGlyph .round then some .round
  else if c = openGlyph .curly then some .curly
  else none

/-- The bracket that a glyph closes. -/
def ofCloseGlyph? (c : Char) : Option Bracket :=
  if c = closeGlyph .round then some .round
  else if c = closeGlyph .curly then some .curly
  else none

end Bracket

end QuotedLisp
