import QuotedLisp.Proofs.Decimal.RoundTrip

/-!
# Overflow

Rounding gives infinity exactly for the magnitudes that are at least half way from the largest
double to the power of two after it, `ofRatio_eq_infinity`: the half way point is a tie, and the
mantissa of the largest double is odd, so the tie goes up. A decimal is read as infinity exactly if
its value is that large, `Decimal.toBinary64_eq_infinity`, and it is never read as something that is
no number.
-/

namespace QuotedLisp

namespace Binary64

variable {num den n top : Nat} {negative : Bool}

/-- A quotient is rounded to its integer part or to the number after it. -/
theorem roundHalfEven_bounds (num den : Nat) :
    num / den ≤ roundHalfEven num den ∧ roundHalfEven num den ≤ num / den + 1 := by
  unfold roundHalfEven
  dsimp only
  split
  · omega
  · split <;> omega

/-- An even number is reached by rounding from the half before it on. -/
theorem lt_roundHalfEven (hden : 0 < den) (hodd : n % 2 = 1) :
    n < roundHalfEven num den ↔ (2 * n + 1) * den ≤ 2 * num := by
  have hnum := Nat.div_add_mod num den
  have hmod := Nat.mod_lt num hden
  obtain ⟨hlow, hhigh⟩ := roundHalfEven_bounds num den
  rcases Nat.lt_trichotomy n (num / den) with hlt | heq | hgt
  · have hmul : (2 * n + 1) * den ≤ 2 * (den * (num / den)) := calc
      (2 * n + 1) * den ≤ 2 * (num / den) * den := Nat.mul_le_mul_right den (by omega)
      _ = 2 * (den * (num / den)) := by rw [Nat.mul_assoc, Nat.mul_comm den]
    omega
  · -- The odd number before it is the integer part, so a tie goes to the number itself.
    unfold roundHalfEven
    rw [← heq] at hnum ⊢
    rw [Nat.add_mul, Nat.mul_assoc, Nat.one_mul, Nat.mul_comm n]
    dsimp only
    split
    · omega
    · split <;> omega
  · have hmul : 2 * (den * (num / den + 1)) + den ≤ (2 * n + 1) * den := calc
      2 * (den * (num / den + 1)) + den = (2 * (num / den + 1) + 1) * den := by
        rw [Nat.add_mul, Nat.one_mul, Nat.mul_assoc, Nat.mul_comm den]
      _ ≤ (2 * n + 1) * den := Nat.mul_le_mul_right den (by omega)
    rw [Nat.mul_add, Nat.mul_one] at hmul
    omega

/-- On its grid the integer part of a magnitude has no more than 53 binary digits, and no fewer
unless the grid is the finest. -/
theorem gridExponent_bounds (integerPart : Nat) :
    integerPart < Nat.pow 2 (53 + gridExponent integerPart) ∧
      (gridExponent integerPart ≠ 0 →
        Nat.pow 2 (52 + gridExponent integerPart) ≤ integerPart) := by
  by_cases hzero : integerPart = 0
  · subst hzero
    exact ⟨Nat.two_pow_pos _, fun h => absurd rfl h⟩
  · have hdef : gridExponent integerPart = integerPart.log2 + 1 - 53 := rfl
    refine ⟨(Nat.log2_lt hzero).mp ?_, fun hne => (Nat.le_log2 hzero).mp ?_⟩
    · omega
    · omega

/-- The mantissa of a rounded magnitude. -/
theorem mantissa_bounds (num den : Nat) :
    let exp := gridExponent (num / den)
    roundHalfEven num (den * Nat.pow 2 exp) ≤ Nat.pow 2 53 ∧
      (exp = 0 ∨ Nat.pow 2 52 ≤ roundHalfEven num (den * Nat.pow 2 exp)) := by
  intro exp
  obtain ⟨hhigh, hlow⟩ := gridExponent_bounds (num / den)
  obtain ⟨hround, hround'⟩ := roundHalfEven_bounds num (den * Nat.pow 2 exp)
  rw [← Nat.div_div_eq_div_mul] at hround hround'
  constructor
  · have hquotient : num / den / 2 ^ exp < 2 ^ 53 := by
      rw [Nat.div_lt_iff_lt_mul (Nat.two_pow_pos exp), ← Nat.pow_add]
      exact hhigh
    exact Nat.le_trans hround' hquotient
  · by_cases hexp : exp = 0
    · exact .inl hexp
    · refine .inr (Nat.le_trans ?_ hround)
      show 2 ^ 52 ≤ num / den / 2 ^ exp
      rw [Nat.le_div_iff_mul_le (Nat.two_pow_pos exp), ← Nat.pow_add]
      exact hlow hexp

/-- A mantissa and an exponent make a finite number or an infinity. -/
theorem ofMantissa_eq_infinity {mant exp : Nat} :
    ofMantissa negative mant exp = .infinity negative ↔ ¬ Canonical mant exp := by
  unfold ofMantissa
  split
  · rename_i hcanonical
    refine ⟨fun h => ?_, fun h => absurd hcanonical h⟩
    cases h
  · rename_i hcanonical
    exact ⟨fun _ => hcanonical, fun _ => rfl⟩

/-- A magnitude is past the grid after a given one, or rounded up to its end, exactly if it is at
least half way between its last point and its end. -/
theorem grid_overflow (hden : 0 < den) :
    (top + 1 < gridExponent (num / den) ∨ gridExponent (num / den) = top + 1 ∧
        roundHalfEven num (den * Nat.pow 2 (gridExponent (num / den))) = Nat.pow 2 53) ↔
      (Nat.pow 2 54 - 1) * Nat.pow 2 top * den ≤ num := by
  show _ ↔ (2 ^ 54 - 1) * 2 ^ top * den ≤ num
  obtain ⟨hhigh, hlow⟩ := gridExponent_bounds (num / den)
  obtain ⟨hmant, -⟩ := mantissa_bounds num den
  generalize gridExponent (num / den) = exp at hhigh hlow hmant ⊢
  rcases Nat.lt_trichotomy exp (top + 1) with hlt | rfl | hgt
  · -- The magnitude is on a finer grid, which ends before.
    have hpow : 2 ^ (53 + exp) ≤ (2 ^ 54 - 1) * 2 ^ top := calc
      2 ^ (53 + exp) ≤ 2 ^ (53 + top) := Nat.pow_le_pow_right (by decide) (by omega)
      _ = 2 ^ 53 * 2 ^ top := Nat.pow_add 2 53 top
      _ ≤ (2 ^ 54 - 1) * 2 ^ top := Nat.mul_le_mul_right _ (by decide)
    have hnum : num < 2 ^ (53 + exp) * den := (Nat.div_lt_iff_lt_mul hden).mp hhigh
    have hmul := Nat.mul_le_mul_right den hpow
    omega
  · -- It is on the grid itself, where only rounding leads to the end.
    have hround : Nat.pow 2 53 - 1 < roundHalfEven num (den * Nat.pow 2 (top + 1)) ↔
        (2 * (Nat.pow 2 53 - 1) + 1) * (den * Nat.pow 2 (top + 1)) ≤ 2 * num :=
      lt_roundHalfEven (Nat.mul_pos hden (Nat.two_pow_pos _)) (by decide)
    have hdouble : (2 * (Nat.pow 2 53 - 1) + 1) * (den * Nat.pow 2 (top + 1)) =
        2 * ((2 ^ 54 - 1) * 2 ^ top * den) := by
      show (2 ^ 54 - 1) * (den * 2 ^ (top + 1)) = _
      rw [Nat.pow_succ 2 top, ← Nat.mul_assoc den, Nat.mul_comm _ 2, Nat.mul_left_comm _ 2,
        Nat.mul_comm den, Nat.mul_assoc]
    rw [hdouble] at hround
    have hpos : 0 < Nat.pow 2 53 := by decide
    omega
  · have hpow : (2 ^ 54 - 1) * 2 ^ top ≤ 2 ^ (52 + exp) := calc
      (2 ^ 54 - 1) * 2 ^ top ≤ 2 ^ 54 * 2 ^ top := Nat.mul_le_mul_right _ (by decide)
      _ = 2 ^ (54 + top) := (Nat.pow_add 2 54 top).symm
      _ ≤ 2 ^ (52 + exp) := Nat.pow_le_pow_right (by decide) (by omega)
    have hnum : 2 ^ (52 + exp) * den ≤ num := (Nat.le_div_iff_mul_le hden).mp (hlow (by omega))
    have hmul := Nat.mul_le_mul_right den hpow
    omega

/-- Rounding gives infinity from half way between the largest double and the end of its grid on. -/
theorem ofRatio_eq_infinity (htop : top + 1 = 2045) (hden : 0 < den) :
    ofRatio negative num den = .infinity negative ↔
      (Nat.pow 2 54 - 1) * Nat.pow 2 top * den ≤ num := by
  obtain ⟨hmant, hfull⟩ := mantissa_bounds num den
  refine Iff.trans ?_ (grid_overflow hden)
  unfold ofRatio
  dsimp only
  generalize gridExponent (num / den) = exp at hmant hfull ⊢
  generalize roundHalfEven num (den * Nat.pow 2 exp) = mant at hmant hfull ⊢
  split
  · rename_i hend
    have hcanonical : Canonical (Nat.pow 2 52) (exp + 1) ↔ exp + 1 ≤ 2045 :=
      ⟨fun h => h.2.1, fun h => ⟨by decide, h, .inr (Nat.le_refl _)⟩⟩
    rw [ofMantissa_eq_infinity, hcanonical]
    omega
  · rename_i hend
    have hcanonical : Canonical mant exp ↔ exp ≤ 2045 :=
      ⟨fun h => h.2.1, fun h => ⟨Nat.lt_of_le_of_ne hmant hend, h, hfull⟩⟩
    rw [ofMantissa_eq_infinity, hcanonical]
    omega

/-- The value half way from the largest double to the power of two after it. -/
def overflowLimit : Nat :=
  (Nat.pow 2 54 - 1) * Nat.pow 2 970

/-- A quotient in ones is rounded to infinity from that value on. -/
theorem ofRatio_units_eq_infinity (hden : 0 < den) :
    ofRatio negative (num * unitsPerOne) den = .infinity negative ↔
      overflowLimit * den ≤ num := by
  have htop : 970 + 1074 + 1 = 2045 := rfl
  unfold unitsPerOne overflowLimit
  generalize 970 = half at htop ⊢
  generalize 1074 = ones at htop ⊢
  have hsplit : (Nat.pow 2 54 - 1) * Nat.pow 2 (half + ones) * den =
      (Nat.pow 2 54 - 1) * Nat.pow 2 half * den * Nat.pow 2 ones := by
    have hpow : Nat.pow 2 (half + ones) = Nat.pow 2 half * Nat.pow 2 ones :=
      Nat.pow_add 2 half ones
    rw [hpow, ← Nat.mul_assoc, Nat.mul_right_comm]
  rw [ofRatio_eq_infinity htop hden, hsplit]
  exact Nat.mul_le_mul_right_iff (Nat.two_pow_pos ones)

end Binary64

namespace Decimal

/-- The value of a decimal is at least half way from the largest double to the power of two after
it. -/
def Overflows (d : Decimal) : Prop :=
  Binary64.overflowLimit * Nat.pow 10 (-d.exponent).toNat ≤
    d.coefficient * Nat.pow 10 d.exponent.toNat

/-- It can be decided whether a decimal is that large. -/
instance (d : Decimal) : Decidable d.Overflows :=
  inferInstanceAs (Decidable (_ ≤ _))

/-- From a certain power of ten on every decimal is that large. -/
theorem overflowLimit_le {exponent : Nat} (h : 311 ≤ exponent) :
    Binary64.overflowLimit ≤ Nat.pow 10 exponent := by
  have hlimit : Binary64.overflowLimit ≤ Nat.pow 10 311 := by decide +kernel
  generalize 311 = least at h hlimit
  exact Nat.le_trans hlimit (Nat.pow_le_pow_right (by decide) h)

/-- There are numbers below the limit. -/
theorem overflowLimit_pos : 0 < Binary64.overflowLimit := by
  decide +kernel

/-- A number has no more decimal digits than binary ones. -/
theorem lt_ten_pow_log2 (n : Nat) : n < Nat.pow 10 (n.log2 + 1) :=
  Nat.lt_of_lt_of_le Nat.lt_log2_self (Nat.pow_le_pow_left (by decide) _)

/-- A decimal is read as infinity exactly if it is that large. -/
theorem toBinary64_eq_infinity {d : Decimal} {negative : Bool} :
    d.toBinary64 negative = .infinity negative ↔ d.Overflows := by
  obtain ⟨coefficient, exponent⟩ := d
  have hlimit := overflowLimit_pos
  have hpow (n : Nat) : 0 < 10 ^ n := Nat.pow_pos (by decide)
  show _ ↔ Binary64.overflowLimit * 10 ^ (-exponent).toNat ≤ coefficient * 10 ^ exponent.toNat
  unfold toBinary64
  dsimp only
  split
  · rename_i hzero
    have hpos := Nat.mul_pos hlimit (hpow (-exponent).toNat)
    rw [hzero, Nat.zero_mul]
    exact ⟨nofun, fun h => absurd h (by omega)⟩
  · rename_i hzero
    split
    · -- The power of ten alone is past the limit.
      have hten : Binary64.overflowLimit ≤ 10 ^ exponent.toNat := overflowLimit_le (by omega)
      have hmul := Nat.le_mul_of_pos_left (10 ^ exponent.toNat) (Nat.pos_of_ne_zero hzero)
      have hneg : (-exponent).toNat = 0 := by omega
      rw [hneg, Nat.pow_zero, Nat.mul_one]
      exact iff_of_true rfl (Nat.le_trans hten hmul)
    · split
      · -- There are more places than digits, so the value is less than one.
        have hten : 10 ^ (coefficient.log2 + 1) ≤ 10 ^ (-exponent).toNat :=
          Nat.pow_le_pow_right (by decide) (by omega)
        have hmul := Nat.le_mul_of_pos_left (10 ^ (-exponent).toNat) hlimit
        have hlt : coefficient < 10 ^ (coefficient.log2 + 1) := lt_ten_pow_log2 coefficient
        have hpos : exponent.toNat = 0 := by omega
        rw [hpos, Nat.pow_zero, Nat.mul_one]
        exact ⟨nofun, fun h => absurd h (by omega)⟩
      · split
        · have hneg : (-exponent).toNat = 0 := by omega
          rw [hneg, Nat.pow_zero]
          exact Binary64.ofRatio_units_eq_infinity Nat.one_pos
        · have hpos : exponent.toNat = 0 := by omega
          rw [hpos, Nat.pow_zero, Nat.mul_one]
          exact Binary64.ofRatio_units_eq_infinity (hpow _)

-- The limit lies between the largest double and the next decimal of as many digits.
example : ¬ Overflows ⟨17976931348623157, 292⟩ ∧ Overflows ⟨17976931348623159, 292⟩ := by
  decide +kernel

/-- What a decimal is read as is finite, or the infinity of its sign. -/
theorem toBinary64_isFinite (d : Decimal) (negative : Bool) :
    (d.toBinary64 negative).isFinite = true ∨ d.toBinary64 negative = .infinity negative := by
  have hmantissa (mant exp : Nat) : (Binary64.ofMantissa negative mant exp).isFinite = true ∨
      Binary64.ofMantissa negative mant exp = .infinity negative := by
    unfold Binary64.ofMantissa
    split
    · exact .inl rfl
    · exact .inr rfl
  have hratio (num den : Nat) : (Binary64.ofRatio negative num den).isFinite = true ∨
      Binary64.ofRatio negative num den = .infinity negative := by
    unfold Binary64.ofRatio
    dsimp only
    split <;> exact hmantissa _ _
  unfold toBinary64
  split
  · exact .inl rfl
  · split
    · exact .inr rfl
    · split
      · exact .inl rfl
      · split <;> exact hratio _ _

end Decimal

end QuotedLisp
