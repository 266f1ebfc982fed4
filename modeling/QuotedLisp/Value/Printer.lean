import QuotedLisp.Decimal.Shortest
import QuotedLisp.Value.Basic

/-!
# Writing values

`Value.toText` is the form in which a value is shown: numbers by their shortest decimal, strings
as literals, lists in their brackets with single spaces between the items. For values without
functions and errors this is source text that reads as the same value.
-/

namespace QuotedLisp

/-- Texts with single spaces between them. -/
def spaced : List (List Char) → List Char
  | [] => []
  | [text] => text
  | text :: next :: rest => text ++ ' ' :: spaced (next :: rest)

/-- A text between the glyphs of a bracket. -/
def Bracket.around (b : Bracket) (inside : List Char) : List Char :=
  b.openGlyph :: (inside ++ [b.closeGlyph])

namespace Value

mutual

/-- The form in which a value is shown. A closure shows its formals and its body in round
brackets, whatever bracket the body was given in, and not the arguments that it holds. -/
def toText : Value → List Char
  | .number x => x.toText
  | .string text => Text.Quoted.encode text.toList
  | .identifier name => name.toList
  | .list bracket items => bracket.around (spaced (toTexts items))
  | .builtin _ => "<builtin>".toList
  | .closure _ formals _ body =>
    Bracket.round.around
      (spaced ["fn".toList, Bracket.round.around (spaced (formals.map String.toList)),
        Bracket.round.around (spaced (toTexts body))])
  | .error e => "Error: ".toList ++ e.message.toList

/-- The form of each item. -/
def toTexts : List Value → List (List Char)
  | [] => []
  | v :: rest => toText v :: toTexts rest

end

/-- The form in which a value is shown, as a string. -/
def display (v : Value) : String :=
  String.ofList v.toText

end Value

end QuotedLisp
