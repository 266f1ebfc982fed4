import QuotedLisp.Binary64.Rounding

/-!
# Arithmetic on doubles

Sum, difference, product, quotient and remainder: the exact result, rounded once by
`Binary64.ofRatio`, with the IEEE 754 rules for signed zeros, infinities and NaN around it.
-/

namespace QuotedLisp.Binary64

/-- The unit of `Finite.magnitude` is the reciprocal of this number. -/
def unitsPerOne : Nat :=
  Nat.pow 2 1074

/-- The double nearest to a signed number of units, with a given sign of zero. -/
def ofUnits (zeroNegative : Bool) (units : Int) : Binary64 :=
  if units = 0 then zero zeroNegative else ofRatio (units < 0) units.natAbs 1

/-- The other sign, for zeros and infinities too. -/
def neg : Binary64 → Binary64
  | .finite x => .finite x.neg
  | .infinity s => .infinity !s
  | .nan => .nan

/-- The sum. A sum of zero is negative only if both terms are. -/
def add : Binary64 → Binary64 → Binary64
  | .finite x, .finite y => ofUnits (x.negative && y.negative) (x.units + y.units)
  | .finite _, .infinity t => .infinity t
  | .infinity s, .finite _ => .infinity s
  | .infinity s, .infinity t => if s = t then .infinity s else .nan
  | _, _ => .nan

/-- The difference, as the sum with the other sign. -/
def sub (x y : Binary64) : Binary64 :=
  add x (neg y)

/-- The product. -/
def mul : Binary64 → Binary64 → Binary64
  | .finite x, .finite y =>
      ofRatio (x.negative != y.negative) (x.magnitude * y.magnitude) unitsPerOne
  | .finite x, .infinity t => if x.mant = 0 then .nan else .infinity (x.negative != t)
  | .infinity s, .finite y => if y.mant = 0 then .nan else .infinity (s != y.negative)
  | .infinity s, .infinity t => .infinity (s != t)
  | _, _ => .nan

/-- The quotient; a nonzero number over a zero is infinite. -/
def div : Binary64 → Binary64 → Binary64
  | .finite x, .finite y =>
      if y.mant = 0 then
        if x.mant = 0 then .nan else .infinity (x.negative != y.negative)
      else ofRatio (x.negative != y.negative) (x.magnitude * unitsPerOne) y.magnitude
  | .finite x, .infinity t => zero (x.negative != t)
  | .infinity s, .finite y => .infinity (s != y.negative)
  | _, _ => .nan

/-- The remainder of the division truncated toward zero, with the sign of the dividend. It is
exact, so rounding leaves it alone. -/
def rem : Binary64 → Binary64 → Binary64
  | .finite x, .finite y =>
      if y.mant = 0 then .nan else ofRatio x.negative (x.magnitude % y.magnitude) 1
  | .finite x, .infinity _ => .finite x
  | _, _ => .nan

end QuotedLisp.Binary64
