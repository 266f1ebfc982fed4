/-!
# String literals

A string is written between double quotes, with a backslash before what could not stand there
plainly. `encode` writes a string and `decode` reads a literal. Two escapes name one character
each in both directions; reading admits a quoted apostrophe as well, which writing never needs.
-/

namespace QuotedLisp.Text.Quoted

/-- Why a literal denotes no string. -/
inductive Fault where
  | missingQuotes
  | unknownEscape (c : Char)
  | trailingBackslash
deriving DecidableEq, Repr

/-- The fault in words. -/
def Fault.describe : Fault → String
  | .missingQuotes => "missing quotes"
  | .unknownEscape c => "unknown escape sequence \\" ++ String.singleton c
  | .trailingBackslash => "trailing backslash"

/-- The letter that stands for a character after a backslash, if the character is escaped. -/
def escapeLetter? : Char → Option Char
  | '\n' => some 'n'
  | '\t' => some 't'
  | '\r' => some 'r'
  | '\x00' => some '0'
  | '\\' => some '\\'
  | '"' => some '"'
  | _ => none

/-- The character that a letter after a backslash stands for. -/
def unescapeLetter? : Char → Option Char
  | 'n' => some '\n'
  | 't' => some '\t'
  | 'r' => some '\r'
  | '0' => some '\x00'
  | '\\' => some '\\'
  | '"' => some '"'
  | '\'' => some '\''
  | _ => none

/-- One character as it stands inside a literal. -/
def encodeChar (c : Char) : List Char :=
  match escapeLetter? c with
  | some letter => ['\\', letter]
  | none => [c]

/-- The literal of a string, quotes included. -/
def encode (s : List Char) : List Char :=
  '"' :: (s.flatMap encodeChar ++ ['"'])

/-- The string that the inside of a literal denotes. -/
def decodeBody : List Char → Except Fault (List Char)
  | [] => .ok []
  | ['\\'] => .error .trailingBackslash
  | '\\' :: letter :: rest =>
    match unescapeLetter? letter with
    | none => .error (.unknownEscape letter)
    | some c => (decodeBody rest).map (c :: ·)
  | c :: rest => (decodeBody rest).map (c :: ·)

/-- The inside of a literal: what stands between its first and last quote. -/
def body? : List Char → Option (List Char)
  | '"' :: rest => if rest.getLast? = some '"' then some rest.dropLast else none
  | _ => none

/-- The string that a literal denotes. -/
def decode (literal : List Char) : Except Fault (List Char) :=
  match body? literal with
  | none => .error .missingQuotes
  | some inside => decodeBody inside

end QuotedLisp.Text.Quoted
