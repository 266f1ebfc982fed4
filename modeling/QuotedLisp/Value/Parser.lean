import QuotedLisp.Decimal.Reader
import QuotedLisp.Token.Lexer
import QuotedLisp.Value.Basic

/-!
# Reading values

`Value.ofTokens` reads a token list as a sequence of items. A bracket is matched by counting: the
list that it opens ends where as many brackets have been closed as were opened, of either kind, and
only then are the two glyphs compared. What stands between them is read as a sequence of its own.
-/

namespace QuotedLisp

/-- The index of the token that brings the bracket depth back to zero, from a given depth. -/
def closeIndexFrom (depth : Nat) : List Token → Option Nat
  | [] => none
  | t :: rest =>
    match t.kind with
    | .opening => (closeIndexFrom (depth + 1) rest).map (· + 1)
    | .closing =>
      match depth with
      | 0 => none
      | 1 => some 0
      | deeper + 1 => (closeIndexFrom deeper rest).map (· + 1)
    | _ => (closeIndexFrom depth rest).map (· + 1)

/-- The index of the bracket that closes the one at the head of the list. -/
def closeIndex? (tokens : List Token) : Option Nat :=
  closeIndexFrom 0 tokens

namespace Value

/-- The number that a token spells, if it is finite. -/
def ofNumberToken (t : Token) : Except ParseError Value :=
  match Binary64.ofText? t.text.toList with
  | some x => if x.isFinite then .ok (.number x) else .error (.unexpectedToken t)
  | none => .error (.unexpectedToken t)

/-- The string that a token denotes. -/
def ofStringToken (t : Token) : Except ParseError Value :=
  match Text.Quoted.decode t.text.toList with
  | .ok s => .ok (.string (String.ofList s))
  | .error fault => .error (.malformedString t.text fault)

/-- The kind of the list between an opening token and the token that closes it. -/
def bracketOf (opening : Token) (closing? : Option Token) : Except ParseError Bracket :=
  match opening.bracket? with
  | none => .error (.unexpectedToken opening)
  | some b =>
    match closing? with
    | none => .error .unexpectedEndOfInput
    | some closing =>
      if closing.bracket? = some b then .ok b else .error (.unexpectedToken closing)

/-- The items that a token list spells. -/
def ofTokens (tokens : List Token) : Except ParseError (List Value) :=
  match tokens with
  | [] => .ok []
  | t :: rest =>
    match t.kind with
    | .whitespace | .comment => ofTokens rest
    | .identifier => do
      let items ← ofTokens rest
      .ok (.identifier t.text :: items)
    | .number => do
      let item ← ofNumberToken t
      let items ← ofTokens rest
      .ok (item :: items)
    | .string => do
      let item ← ofStringToken t
      let items ← ofTokens rest
      .ok (item :: items)
    | .opening =>
      match closeIndex? (t :: rest) with
      | none => .error .unexpectedEndOfInput
      | some i => do
        let bracket ← bracketOf t (t :: rest)[i]?
        let inner ← ofTokens (rest.take (i - 1))
        let items ← ofTokens (rest.drop i)
        .ok (.list bracket inner :: items)
    | .closing => .error (.unexpectedToken t)
termination_by tokens.length
decreasing_by all_goals simp only [List.length_take, List.length_drop, List.length_cons]; omega

/-- The items that a source text spells. -/
def ofSource (source : String) : Except Error (List Value) :=
  match tokenize source with
  | .error e => .error (.lex e)
  | .ok tokens =>
    match ofTokens tokens with
    | .error e => .error (.parse e)
    | .ok items => .ok items

end Value

end QuotedLisp
