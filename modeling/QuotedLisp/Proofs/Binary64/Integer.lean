import QuotedLisp.Proofs.Binary64.Exact

/-!
# Integers among the doubles

All integers up to `countLimit` in size are doubles (`isInt_ofUnits`), so counting by one is exact as
far as that. There it stops: the next integer lies between two doubles, and of these the even one is the
nearest, so one more is the same again (`one_add_ofInt`), and one less at the other end
(`IsInt.sub_one`).
-/

namespace QuotedLisp.Binary64

/-- The integers up to `2 ^ 53` in size are doubles, and the next is not. -/
def countLimit : Nat :=
  Nat.pow 2 53

/-- There are integers to count. -/
theorem countLimit_pos : 0 < countLimit := by
  decide

/-- The double nearest to an integer. -/
def ofInt (n : Int) : Binary64 :=
  ofUnits false (n * unitsPerOne)

/-- No ones are zero. -/
theorem ofInt_zero : ofInt 0 = zero false := by
  rw [ofInt, Int.zero_mul]
  rfl

/-- The number is the given integer. Zero may have either sign. -/
def IsInt (x : Binary64) (n : Int) : Prop :=
  ∃ y : Finite, x = .finite y ∧ y.units = n * unitsPerOne

/-- An integer is a finite number. -/
theorem IsInt.isFinite {x : Binary64} {n : Int} (h : IsInt x n) : x.isFinite = true := by
  obtain ⟨y, rfl, -⟩ := h
  rfl

/-- A one has units. -/
theorem unitsPerOne_pos : 0 < unitsPerOne := by
  decide +kernel

/-- Mantissas up to `countLimit` are those of doubles, the last of them on the next grid. -/
theorem exists_magnitude_le {mant exp : Nat} (hmant : mant ≤ countLimit) (hexp : exp < 2045) :
    ∃ x : Finite, x.magnitude = mant * Nat.pow 2 exp := by
  rcases Nat.lt_or_eq_of_le hmant with hlt | rfl
  · exact exists_magnitude hlt (Nat.le_of_lt hexp)
  · obtain ⟨x, hx⟩ := @exists_magnitude (2 ^ 52) _ (by decide) hexp
    refine ⟨x, hx.trans ?_⟩
    show 2 ^ 52 * 2 ^ (exp + 1) = 2 ^ 53 * 2 ^ exp
    rw [Nat.pow_succ 2 exp]
    omega

/-- Natural numbers up to `countLimit` are magnitudes of doubles. -/
theorem exists_magnitude_nat {k : Nat} (h : k ≤ countLimit) :
    ∃ x : Finite, x.magnitude = k * unitsPerOne := by
  have hexp : 1074 < 2045 := by decide
  unfold unitsPerOne
  generalize 1074 = exp at hexp ⊢
  exact exists_magnitude_le h hexp

/-- Rounding leaves integers up to `countLimit` in size alone. -/
theorem isInt_ofUnits (zeroNegative : Bool) {n : Int} (h : n.natAbs ≤ countLimit) :
    IsInt (ofUnits zeroNegative (n * unitsPerOne)) n := by
  unfold IsInt
  by_cases hzero : n = 0
  · subst hzero
    rw [Int.zero_mul]
    refine ⟨⟨zeroNegative, 0, 0, by decide⟩, rfl, ?_⟩
    cases zeroNegative <;> rfl
  · obtain ⟨x, hx⟩ := exists_magnitude_nat h
    have hpos := unitsPerOne_pos
    generalize unitsPerOne = unit at hx hpos ⊢
    have hunits : n * unit ≠ 0 := Int.mul_ne_zero hzero (by omega)
    have hmagnitude : (n * unit).natAbs = x.magnitude := by
      rw [Int.natAbs_mul, Int.natAbs_natCast, hx]
    have hround := ofRatio_magnitude (n * unit < 0) x Nat.one_pos
    rw [Nat.mul_one, ← hmagnitude] at hround
    refine ⟨x.withSign (n * unit < 0), ?_, ?_⟩
    · rw [ofUnits, if_neg hunits, hround]
    · rw [Finite.units, Finite.magnitude_with_sign, ← hmagnitude]
      show (if decide (n * unit < 0) = true then _ else _) = _
      by_cases hnegative : n * unit < 0
      · rw [decide_eq_true hnegative, if_pos rfl]
        omega
      · rw [decide_eq_false hnegative, if_neg Bool.false_ne_true]
        omega

/-- The other sign gives the other number of units. -/
theorem Finite.units_neg (x : Finite) : x.neg.units = -x.units := by
  obtain ⟨negative, mant, exp, canonical⟩ := x
  cases negative with
  | false => rfl
  | true => exact (Int.neg_neg _).symm

/-- One has the units of one. -/
theorem one_eq : ∃ y : Finite, one = .finite y ∧ y.negative = false ∧ y.units = unitsPerOne :=
  ⟨_, rfl, rfl, by decide +kernel⟩

/-- The number after `countLimit` is rounded to it. -/
theorem ofUnits_past (zeroNegative : Bool) :
    ofUnits zeroNegative ((countLimit + 1) * unitsPerOne) =
        ofUnits false (countLimit * unitsPerOne) ∧
      ofUnits zeroNegative ((-countLimit - 1) * unitsPerOne) =
        ofUnits false (-countLimit * unitsPerOne) := by
  cases zeroNegative <;> decide +kernel

/-- One more than an integer that is not negative, as far as integers are doubles. -/
theorem one_add_ofInt {n : Int} (hlow : 0 ≤ n) (hhigh : n ≤ countLimit) :
    add one (ofInt n) = ofInt (min (n + 1) countLimit) := by
  obtain ⟨x, hx, hsign, hunits⟩ := one_eq
  obtain ⟨y, hy, hvalue⟩ := isInt_ofUnits false (n := n) (by omega)
  have hsum : add one (ofInt n) = ofInt (n + 1) := by
    show add one (ofUnits false (n * unitsPerOne)) = _
    rw [hx, hy, add, hsign, hunits, hvalue, Bool.false_and, ofInt, Int.add_mul, Int.one_mul,
      Int.add_comm]
  rw [hsum]
  by_cases hlast : n = countLimit
  · subst hlast
    exact (ofUnits_past false).1
  · rw [Int.min_eq_left (by omega)]

/-- One less than an integer, as far as integers are doubles. -/
theorem IsInt.sub_one {x : Binary64} {n : Int} (h : IsInt x n) (hn : n.natAbs ≤ countLimit) :
    IsInt (sub x one) (max (n - 1) (-countLimit)) := by
  obtain ⟨y, rfl, hvalue⟩ := h
  obtain ⟨o, ho, hsign, hunits⟩ := one_eq
  have hdifference : sub (.finite y) one = ofUnits y.negative ((n - 1) * unitsPerOne) := by
    have hnegative : o.neg.negative = true := by rw [Finite.neg, hsign, Bool.not_false]
    rw [ho, sub, neg, add, hvalue, Finite.units_neg, hunits, hnegative, Bool.and_true, Int.sub_mul,
      Int.one_mul, Int.sub_eq_add_neg]
  rw [hdifference]
  by_cases hfirst : n = -countLimit
  · subst hfirst
    rw [(ofUnits_past _).2]
    exact isInt_ofUnits false (by decide)
  · rw [Int.max_eq_left (by omega)]
    exact isInt_ofUnits _ (by omega)

/-- An integer is equal to zero, whatever the sign of that, if it is zero. -/
theorem IsInt.equal_zero {x : Binary64} {n : Int} (h : IsInt x n) :
    x.equal (zero false) = decide (n = 0) := by
  obtain ⟨y, rfl, hvalue⟩ := h
  show (y.units == 0) = _
  have hpos := unitsPerOne_pos
  rw [hvalue]
  by_cases hzero : n = 0
  · subst hzero
    rw [Int.zero_mul]
    rfl
  · rw [decide_eq_false hzero, beq_eq_false_iff_ne]
    exact Int.mul_ne_zero hzero (by omega)

end QuotedLisp.Binary64
