import QuotedLisp.Arity
import QuotedLisp.Text.Printable
import QuotedLisp.Text.Quoted
import QuotedLisp.Token.Basic

/-!
# Errors

What can go wrong in the three stages of running a text: cutting it into tokens, reading tokens as
lists, and evaluating. Each error records its cause; the wording is in one function for each stage.
-/

namespace QuotedLisp

/-- A text that cannot be cut into tokens. -/
inductive LexError where
  | unrecognizedCharacter (c : Char)
deriving DecidableEq, Repr

/-- The error in words. -/
def LexError.message : LexError → String
  | .unrecognizedCharacter c =>
    "unrecognized character in input: " ++ String.ofList (Text.quotedChar c)

/-- A token list that is no sequence of items. -/
inductive ParseError where
  /-- A token that begins no item, or a bracket that closes the other kind of list. -/
  | unexpectedToken (token : Token)
  /-- A bracket that is never closed. -/
  | unexpectedEndOfInput
  /-- A string literal that denotes no string. -/
  | malformedString (literal : String) (fault : Text.Quoted.Fault)
deriving DecidableEq, Repr

/-- The error in words. -/
def ParseError.message : ParseError → String
  | .unexpectedToken t => "unexpected token in input: " ++ t.text
  | .unexpectedEndOfInput => "unexpected end of input"
  | .malformedString literal fault => s!"malformed string literal {literal}: {fault.describe}"

/-- A failed evaluation. Functions and types are given by their names. -/
inductive RuntimeError where
  | unknownIdentifier (name : String)
  /-- A list of several values that does not begin with a function. -/
  | notAFunction (actual : String)
  | typeMismatch (function expected actual : String)
  /-- A builtin called with a number of arguments that its arity does not admit. -/
  | arityMismatch (function : String) (expected : Arity) (actual : Nat)
  /-- A closure called with more arguments than it has formals. -/
  | tooManyArguments (expected actual : Nat)
  /-- A variadic marker that is not followed by exactly one name. -/
  | malformedVariadic
  /-- The first part of something empty was asked for, or what follows it. -/
  | emptyInput (function what : String)
  | divisionByZero (function : String)
  /-- A result that is not finite, and so has no source form. -/
  | outOfRange (function : String)
  | bindingCountMismatch (function : String) (identifiers values : Nat)
  /-- Two functions, or two errors, were compared. -/
  | incomparable (typeName : String)
  /-- A module that exists but cannot be read, or whose text is no program. -/
  | moduleFailure (name message : String)
  /-- Output that could not be written. -/
  | outputFailure (function message : String)
  /-- Raised by the program itself. -/
  | user (message : String)
deriving DecidableEq, Repr

/-- The error in words. -/
def RuntimeError.message : RuntimeError → String
  | .unknownIdentifier name => s!"unknown identifier `{name}`"
  | .notAFunction actual => s!"S-expressions should start with a function, got {actual}"
  | .typeMismatch function expected actual => s!"`{function}` expected {expected}, got {actual}"
  | .arityMismatch function expected actual =>
    s!"`{function}` expected {expected.describe} argument(s), got {actual}"
  | .tooManyArguments expected actual =>
    s!"function expected at most {expected} argument(s), got {actual}"
  | .malformedVariadic => "`&` must be followed by exactly one formal parameter"
  | .emptyInput function what => s!"cannot take {function} of empty {what}"
  | .divisionByZero function => s!"`{function}` division by zero"
  | .outOfRange function => s!"`{function}` result is out of range"
  | .bindingCountMismatch function identifiers values =>
    s!"`{function}` got {identifiers} identifier(s) but {values} value(s)"
  | .incomparable typeName => s!"cannot compare values of type {typeName}"
  | .moduleFailure name message => s!"cannot load module `{name}`: {message}"
  | .outputFailure function message => s!"`{function}` I/O error: {message}"
  | .user message => message

/-- Why a text could not be run. -/
inductive Error where
  | lex (error : LexError)
  | parse (error : ParseError)
  | runtime (error : RuntimeError)
deriving DecidableEq, Repr

/-- The error in words. -/
def Error.message : Error → String
  | .lex e => e.message
  | .parse e => e.message
  | .runtime e => e.message

end QuotedLisp
