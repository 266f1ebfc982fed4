import QuotedLisp.Token.Basic

/-!
# Lexemes

For each class of tokens, how long the longest lexeme at the start of a text is. `TokenClass.scan`
counts its characters, `0` meaning that the class has no lexeme there, as no lexeme is empty.
-/

namespace QuotedLisp.TokenClass

/-- A character that white space is made of. -/
def isSpace (c : Char) : Bool :=
  c == ' ' || c == '\t' || c == '\r' || c == '\n'

/-- A letter of the alphabet without marks, or a sign that names may hold. -/
def beginsIdentifier (c : Char) : Bool :=
  c.isAlpha || "_+-*/\\=<>!&".toList.contains c

/-- A character that an identifier may go on with. -/
def continuesIdentifier (c : Char) : Bool :=
  beginsIdentifier c || c.isDigit

/-- How many digits a text begins with. -/
def digitCount (text : List Char) : Nat :=
  (text.takeWhile Char.isDigit).length

/-- The length of a number without a sign: digits, with a point after or between them, or a point
with digits after it. -/
def scanUnsigned (text : List Char) : Nat :=
  let whole := digitCount text
  match text.drop whole with
  | '.' :: rest =>
    if whole = 0 ∧ digitCount rest = 0 then 0 else whole + 1 + digitCount rest
  | _ => whole

/-- The length of a number, which may have a sign. -/
def scanNumber : List Char → Nat
  | c :: rest =>
    if c = '+' ∨ c = '-' then
      if scanUnsigned rest = 0 then 0 else scanUnsigned rest + 1
    else scanUnsigned (c :: rest)
  | [] => 0

/-- The length of the rest of a string literal, its closing quote included, if it has one. A
character after a backslash closes nothing. -/
def scanStringBody : List Char → Option Nat
  | [] => none
  | ['\\'] => none
  | '\\' :: _ :: rest => (scanStringBody rest).map (· + 2)
  | c :: rest => if c = '"' then some 1 else (scanStringBody rest).map (· + 1)

/-- The length of the longest lexeme of a class at the start of a text, or `0`. -/
def scan : TokenClass → List Char → Nat
  | .whitespace, text => (text.takeWhile isSpace).length
  | .comment, ';' :: rest => (rest.takeWhile (· != '\n')).length + 1
  | .opening, c :: _ => if (Bracket.ofOpenGlyph? c).isSome then 1 else 0
  | .closing, c :: _ => if (Bracket.ofCloseGlyph? c).isSome then 1 else 0
  | .number, text => scanNumber text
  | .string, '"' :: rest => ((scanStringBody rest).map (· + 1)).getD 0
  | .identifier, c :: rest =>
    if beginsIdentifier c then (rest.takeWhile continuesIdentifier).length + 1 else 0
  | _, _ => 0

end QuotedLisp.TokenClass
