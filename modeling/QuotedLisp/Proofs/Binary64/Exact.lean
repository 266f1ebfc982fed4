import QuotedLisp.Binary64.Arithmetic

/-!
# Rounding of exact values

A magnitude that is itself that of a double is rounded to it: `ofRatio_magnitude`. Rounding a
positive and a negative number differ in the sign of the result only, `ofRatio_with_sign`. The
remainder of two doubles is a double, so it is exact: `rem_exact`.
-/

namespace QuotedLisp.Binary64

/-- The same magnitude with a given sign. -/
def Finite.withSign (x : Finite) (negative : Bool) : Finite :=
  { x with negative := negative }

/-- Giving a number its own sign changes nothing. -/
@[simp] theorem Finite.with_sign_self (x : Finite) : x.withSign x.negative = x := rfl

/-- The magnitude does not depend on the sign. -/
@[simp] theorem Finite.magnitude_with_sign (x : Finite) (negative : Bool) :
    (x.withSign negative).magnitude = x.magnitude := rfl

/-- A mantissa without significant digits belongs to a zero. -/
theorem Finite.eq_zero_of_mant {x : Finite} (h : x.mant = 0) :
    Binary64.finite x = zero x.negative := by
  obtain ⟨negative, mant, exp, canonical⟩ := x
  obtain rfl : mant = 0 := h
  obtain rfl : exp = 0 := by
    rcases canonical.2.2 with hexp | hmant
    · exact hexp
    · exact absurd hmant (by decide)
  rfl

/-- The grid of a magnitude is the one that the canonical exponent names. -/
theorem grid_exponent_magnitude (x : Finite) : gridExponent x.magnitude = x.exp := by
  obtain ⟨negative, mant, exp, hmant, hexp, hfull⟩ := x
  have hmant : mant < 2 ^ 53 := hmant
  have hfull : exp = 0 ∨ 2 ^ 52 ≤ mant := hfull
  show (mant * 2 ^ exp).log2 + 1 - 53 = exp
  rcases hfull with rfl | hfull
  · by_cases hzero : mant = 0
    · subst hzero
      rfl
    · have hlog : mant.log2 < 53 := (Nat.log2_lt hzero).mpr hmant
      simp only [Nat.pow_zero, Nat.mul_one]
      omega
  · have hpos : 0 < mant * 2 ^ exp := Nat.mul_pos (by omega) (Nat.two_pow_pos exp)
    have hlog : (mant * 2 ^ exp).log2 = 52 + exp := by
      rw [Nat.log2_eq_iff (Nat.ne_of_gt hpos)]
      constructor
      · rw [Nat.pow_add]
        exact Nat.mul_le_mul_right _ hfull
      · rw [show 52 + exp + 1 = 53 + exp by omega, Nat.pow_add 2 53]
        exact Nat.mul_lt_mul_of_pos_right hmant (Nat.two_pow_pos exp)
    omega

/-- A quotient without remainder is its own nearest natural number. -/
theorem round_half_even_mul (n : Nat) {den : Nat} (hden : 0 < den) :
    roundHalfEven (n * den) den = n := by
  simp [roundHalfEven, Nat.mul_div_cancel n hden, hden]

/-- The magnitude of a double, given as a quotient, rounds to that double. -/
theorem ofRatio_magnitude (negative : Bool) (x : Finite) {den : Nat} (hden : 0 < den) :
    ofRatio negative (x.magnitude * den) den = .finite (x.withSign negative) := by
  have hround : roundHalfEven (x.magnitude * den) (den * Nat.pow 2 x.exp) = x.mant := by
    rw [show x.magnitude * den = x.mant * (den * Nat.pow 2 x.exp) by
      simp only [Finite.magnitude]
      rw [Nat.mul_assoc, Nat.mul_comm den]]
    exact round_half_even_mul _ (Nat.mul_pos hden (Nat.two_pow_pos _))
  have hbelow : x.mant ≠ Nat.pow 2 53 := Nat.ne_of_lt x.canonical.1
  simp only [ofRatio, Nat.mul_div_cancel _ hden, grid_exponent_magnitude, hround, if_neg hbelow,
    ofMantissa, dif_pos x.canonical]
  rfl

/-- The sign of a rounded number is the one that was asked for. -/
theorem ofMantissa_with_sign {mant exp : Nat} {x : Finite}
    (h : ofMantissa false mant exp = .finite x) (negative : Bool) :
    ofMantissa negative mant exp = .finite (x.withSign negative) := by
  unfold ofMantissa at h ⊢
  split at h
  · rename_i hcanonical
    cases h
    exact dif_pos hcanonical
  · cases h

/-- Rounding does not look at the sign. -/
theorem ofRatio_with_sign {num den : Nat} {x : Finite} (h : ofRatio false num den = .finite x)
    (negative : Bool) : ofRatio negative num den = .finite (x.withSign negative) := by
  simp only [ofRatio] at h ⊢
  split at h
  · rw [if_pos ‹_›]
    exact ofMantissa_with_sign h negative
  · rw [if_neg ‹_›]
    exact ofMantissa_with_sign h negative

/-- A mantissa that fits belongs to a double, whether it is full or not. -/
theorem exists_magnitude {mant exp : Nat} (hmant : mant < Nat.pow 2 53) (hexp : exp ≤ 2045) :
    ∃ x : Finite, x.magnitude = mant * Nat.pow 2 exp := by
  induction exp generalizing mant with
  | zero => exact ⟨⟨false, mant, 0, hmant, hexp, .inl rfl⟩, rfl⟩
  | succ exp ih =>
      by_cases hfull : Nat.pow 2 52 ≤ mant
      · exact ⟨⟨false, mant, exp + 1, hmant, hexp, .inr hfull⟩, rfl⟩
      · have hdouble : 2 * mant < Nat.pow 2 53 := by
          have hhalf : Nat.pow 2 53 = 2 * Nat.pow 2 52 := rfl
          omega
        obtain ⟨x, hx⟩ := ih hdouble (by omega)
        refine ⟨x, ?_⟩
        rw [hx]
        show 2 * mant * 2 ^ exp = mant * 2 ^ (exp + 1)
        rw [Nat.pow_succ, Nat.mul_comm 2 mant, Nat.mul_assoc, Nat.mul_comm 2]

/-- The remainder of two magnitudes is the magnitude of a double: on the finer of the two grids its
mantissa is below that of the divisor, or not above that of the dividend. -/
theorem exists_magnitude_mod (x y : Finite) (hy : y.mant ≠ 0) :
    ∃ z : Finite, z.magnitude = x.magnitude % y.magnitude := by
  obtain ⟨hx, hxexp, -⟩ := x.canonical
  obtain ⟨hymant, hyexp, -⟩ := y.canonical
  have split_exp {exp exp' : Nat} (mant : Nat) (h : exp ≤ exp') :
      mant * Nat.pow 2 exp' = mant * Nat.pow 2 (exp' - exp) * Nat.pow 2 exp := by
    show mant * 2 ^ exp' = mant * 2 ^ (exp' - exp) * 2 ^ exp
    rw [Nat.mul_assoc, ← Nat.pow_add, Nat.sub_add_cancel h]
  unfold Finite.magnitude
  rcases Nat.le_total x.exp y.exp with h | h
  · rw [split_exp y.mant h, Nat.mul_mod_mul_right]
    exact exists_magnitude (Nat.lt_of_le_of_lt (Nat.mod_le _ _) hx) hxexp
  · rw [split_exp x.mant h, Nat.mul_mod_mul_right]
    exact exists_magnitude (Nat.lt_trans (Nat.mod_lt _ (Nat.pos_of_ne_zero hy)) hymant) hyexp

/-- The remainder is exact, and finite. -/
theorem rem_exact (x y : Finite) (hy : y.mant ≠ 0) :
    ∃ z : Finite, rem (.finite x) (.finite y) = .finite z ∧
      z.magnitude = x.magnitude % y.magnitude ∧ z.negative = x.negative := by
  obtain ⟨z, hz⟩ := exists_magnitude_mod x y hy
  refine ⟨z.withSign x.negative, ?_, hz, rfl⟩
  have hround := @ofRatio_magnitude x.negative z 1 (by omega)
  rw [Nat.mul_one, hz] at hround
  simp only [rem, if_neg hy, hround]

end QuotedLisp.Binary64
