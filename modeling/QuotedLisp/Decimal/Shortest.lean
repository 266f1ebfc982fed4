import QuotedLisp.Decimal.Reader

/-!
# The shortest decimal that reads back

`Binary64.toText` writes a number with the fewest digits that read back as the same double. The
decimals with a fixed last place form a grid; of each grid only the two neighbours of the value
matter, and the search goes from coarse grids to fine ones and stops at the first that has a
neighbour which reads back. Of two such neighbours the nearer wins, and the upper one on a tie. The
finest grid, `10 ^ -1074`, holds every double exactly. The digits are written positionally, never
with an exponent.
-/

namespace QuotedLisp

namespace Decimal

/-- The decimal on the grid of last place `10 ^ (place - 1074)`. -/
def onGrid (coefficient place : Nat) : Decimal :=
  ⟨coefficient, (place : Int) - 1074⟩

/-- A decimal on the grid that reads back as the number, if one of the two neighbours of
`exact * 10 ^ -1074` does. -/
def neighbour? (number : Binary64) (exact place : Nat) : Option Decimal :=
  let below := exact / Nat.pow 10 place
  let readsBack (c : Nat) : Bool := (onGrid c place).toBinary64 false == number
  let nearerBelow : Bool := 2 * (exact % Nat.pow 10 place) < Nat.pow 10 place
  if readsBack below && (nearerBelow || !readsBack (below + 1)) then some (onGrid below place)
  else if readsBack (below + 1) then some (onGrid (below + 1) place)
  else none

/-- The first neighbour that reads back, from the given grid to finer ones. -/
def searchFrom (number : Binary64) (exact : Nat) : Nat → Decimal
  | 0 => onGrid exact 0
  | place + 1 => (neighbour? number exact (place + 1)).getD (searchFrom number exact place)

/-- A grid with last place above every digit of `exact`: `30103 / 100000` exceeds the decimal
logarithm of two. -/
def coarsestPlace (exact : Nat) : Nat :=
  (exact.log2 + 1) * 30103 / 100000 + 1

/-- The shortest decimal that reads back as the given magnitude. -/
def ofMagnitude (x : Binary64.Finite) : Decimal :=
  let exact := x.magnitude * Nat.pow 5 1074
  searchFrom (.finite { x with negative := false }) exact (coarsestPlace exact)

/-- Positional notation: zeros fill up to the point, and a point appears only before digits. -/
def toText (d : Decimal) : List Char :=
  let digits := Nat.toDigits 10 d.coefficient
  if 0 ≤ d.exponent then digits ++ List.replicate d.exponent.toNat '0'
  else
    let places := (-d.exponent).toNat
    let padded := List.replicate (places + 1 - digits.length) '0' ++ digits
    padded.take (padded.length - places) ++ '.' :: padded.drop (padded.length - places)

end Decimal

namespace Binary64

/-- The text of a sign: nothing unless negative. -/
def signText (negative : Bool) : List Char :=
  if negative then ['-'] else []

/-- The number as the language writes it. -/
def toText : Binary64 → List Char
  | .finite x =>
      signText x.negative ++
        if x.mant = 0 then ['0'] else (Decimal.ofMagnitude x).toText
  | .infinity s => signText s ++ ['i', 'n', 'f']
  | .nan => ['N', 'a', 'N']

end Binary64

end QuotedLisp
