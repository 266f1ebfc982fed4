import QuotedLisp.Binary64.Arithmetic

/-!
# Reading decimal notation

`Binary64.ofText?` reads a number: an optional sign, then digits with at most one point and an
optional exponent, or one of the words `inf`, `infinity` and `nan` in any case. A decimal stands
for the double nearest to it, `Decimal.toBinary64`.
-/

namespace QuotedLisp

/-- The decimal number `coefficient * 10 ^ exponent`. -/
structure Decimal where
  coefficient : Nat
  exponent : Int
deriving DecidableEq, Repr

namespace Decimal

/-- The number that a row of decimal digits spells. -/
def ofDigits (digits : List Char) : Nat :=
  digits.foldl (fun n c => 10 * n + (c.toNat - '0'.toNat)) 0

/-- The double nearest to a decimal, with the given sign. Exponents that put the value past every
double, or below half of the smallest one, are answered without computing the power of ten. -/
def toBinary64 (negative : Bool) (d : Decimal) : Binary64 :=
  if d.coefficient = 0 then .zero negative
  else if 310 < d.exponent then .infinity negative
  else if d.exponent < -(d.coefficient.log2 + 400 : Nat) then .zero negative
  else if 0 ≤ d.exponent then
    .ofRatio negative (d.coefficient * Nat.pow 10 d.exponent.toNat * Binary64.unitsPerOne) 1
  else
    .ofRatio negative (d.coefficient * Binary64.unitsPerOne) (Nat.pow 10 (-d.exponent).toNat)

/-- A sign, if there is one, and the text after it. -/
def splitSign : List Char → Bool × List Char
  | '-' :: rest => (true, rest)
  | '+' :: rest => (false, rest)
  | text => (false, text)

/-- What follows the digits: nothing, or `e` and a whole number. -/
def exponent? : List Char → Option Int
  | [] => some 0
  | c :: rest =>
    let (negative, digits) := splitSign rest
    if (c = 'e' ∨ c = 'E') ∧ digits ≠ [] ∧ digits.all Char.isDigit then
      some (if negative then -(ofDigits digits : Int) else ofDigits digits)
    else none

/-- Unsigned decimal notation: digits with at most one point, on either side of which digits may
be missing but not on both, and an optional exponent. -/
def ofText? (text : List Char) : Option Decimal :=
  let whole := text.takeWhile Char.isDigit
  let afterWhole := text.dropWhile Char.isDigit
  let (fraction, afterFraction) :=
    match afterWhole with
    | '.' :: rest => (rest.takeWhile Char.isDigit, rest.dropWhile Char.isDigit)
    | rest => ([], rest)
  if whole = [] ∧ fraction = [] then none
  else (exponent? afterFraction).map fun e =>
    ⟨ofDigits (whole ++ fraction), e - fraction.length⟩

end Decimal

namespace Binary64

/-- The words for what has no digits, in lower case. -/
def ofWord? (negative : Bool) (word : List Char) : Option Binary64 :=
  if word = ['i', 'n', 'f'] ∨ word = ['i', 'n', 'f', 'i', 'n', 'i', 't', 'y'] then
    some (.infinity negative)
  else if word = ['n', 'a', 'n'] then some .nan
  else none

/-- The number that a text spells, the whole text being used. -/
def ofText? (text : List Char) : Option Binary64 :=
  let (negative, rest) := Decimal.splitSign text
  match Decimal.ofText? rest with
  | some d => some (d.toBinary64 negative)
  | none => ofWord? negative (rest.map Char.toLower)

end Binary64

end QuotedLisp
