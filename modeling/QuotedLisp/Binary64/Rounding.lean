import QuotedLisp.Binary64.Basic

/-!
# Rounding to the nearest double

Every operation whose exact result may lie between two doubles ends in `Binary64.ofRatio`, which
takes a magnitude as a quotient of natural numbers, in units of `2 ^ -1074`, and rounds it once to
the nearest double, a tie going to the even mantissa and a magnitude past the largest double to
infinity.
-/

namespace QuotedLisp.Binary64

/-- The natural number nearest to `num / den`, the even one of two that are equally near. -/
def roundHalfEven (num den : Nat) : Nat :=
  let quotient := num / den
  let twice := 2 * (num % den)
  if twice < den then quotient
  else if den < twice then quotient + 1
  else quotient + quotient % 2

/-- The number with the given sign, mantissa and exponent, infinite if the exponent is past that
of the largest double. -/
def ofMantissa (negative : Bool) (mant exp : Nat) : Binary64 :=
  if h : Canonical mant exp then .finite ⟨negative, mant, exp, h⟩ else .infinity negative

/-- The exponent of the grid on which a magnitude with this integer part has 53 binary digits, or
the finest grid if it has fewer. -/
def gridExponent (integerPart : Nat) : Nat :=
  integerPart.log2 + 1 - 53

/-- The double nearest to `num / den` units of `2 ^ -1074`, with the given sign. A mantissa that
rounds up to `2 ^ 53` moves to the next grid. -/
def ofRatio (negative : Bool) (num den : Nat) : Binary64 :=
  let exp := gridExponent (num / den)
  let mant := roundHalfEven num (den * Nat.pow 2 exp)
  if mant = Nat.pow 2 53 then ofMantissa negative (Nat.pow 2 52) (exp + 1)
  else ofMantissa negative mant exp

end QuotedLisp.Binary64
