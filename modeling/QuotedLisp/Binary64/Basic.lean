/-!
# Binary64 numbers

The numbers of the language are the IEEE 754 double-precision values, held exactly. A finite one
is a sign and a magnitude `mant * 2 ^ exp`, counted in units of `2 ^ -1074`, the spacing of the
smallest doubles. `Canonical` singles out one mantissa and exponent for each value, so two finite
numbers are equal as Lean terms exactly when they agree in sign and in magnitude.
-/

namespace QuotedLisp

/-- A mantissa below `2 ^ 53`, full (at least `2 ^ 52`) unless it lies on the finest grid. -/
abbrev Binary64.Canonical (mant exp : Nat) : Prop :=
  mant < Nat.pow 2 53 ∧ exp ≤ 2045 ∧ (exp = 0 ∨ Nat.pow 2 52 ≤ mant)

/-- A finite double: `mant * 2 ^ exp` units of `2 ^ -1074`, with a sign that zero has too. -/
structure Binary64.Finite where
  negative : Bool
  mant : Nat
  exp : Nat
  canonical : Binary64.Canonical mant exp
deriving DecidableEq

/-- A double-precision number. All NaNs are one value, as nothing in the language tells them
apart. -/
inductive Binary64 where
  | finite (x : Binary64.Finite)
  | infinity (negative : Bool)
  | nan
deriving DecidableEq

namespace Binary64

/-- The distance from zero in units of `2 ^ -1074`. -/
def Finite.magnitude (x : Finite) : Nat :=
  x.mant * Nat.pow 2 x.exp

/-- The value in units of `2 ^ -1074`; both zeros give `0`. -/
def Finite.units (x : Finite) : Int :=
  if x.negative then -(x.magnitude : Int) else x.magnitude

/-- The same magnitude with the other sign. -/
def Finite.neg (x : Finite) : Finite :=
  { x with negative := !x.negative }

/-- The zero with the given sign. -/
def zero (negative : Bool) : Binary64 :=
  .finite ⟨negative, 0, 0, by decide⟩

/-- The number one. -/
def one : Binary64 :=
  .finite ⟨false, Nat.pow 2 52, 1022, by decide⟩

/-- Zero is a number. -/
instance : Inhabited Binary64 :=
  ⟨zero false⟩

/-- Neither an infinity nor NaN. -/
def isFinite : Binary64 → Bool
  | .finite _ => true
  | _ => false

/-- One of the two zeros. -/
def isZero : Binary64 → Bool
  | .finite x => x.mant == 0
  | _ => false

/-- Truth as the language spells it: one or zero. -/
def ofBool (b : Bool) : Binary64 :=
  if b then one else zero false

/-- Numeric equality: the zeros are equal, and NaN differs from everything. -/
def equal : Binary64 → Binary64 → Bool
  | .finite x, .finite y => x.units == y.units
  | .infinity s, .infinity t => s == t
  | _, _ => false

/-- Numeric order, false whenever NaN takes part. -/
def less : Binary64 → Binary64 → Bool
  | .finite x, .finite y => x.units < y.units
  | .finite _, .infinity t => !t
  | .infinity s, .finite _ => s
  | .infinity s, .infinity t => s && !t
  | _, _ => false

/-- Less or equal, false whenever NaN takes part. -/
def lessEqual (x y : Binary64) : Bool :=
  less x y || equal x y

end Binary64

end QuotedLisp
