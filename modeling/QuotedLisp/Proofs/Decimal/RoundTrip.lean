import QuotedLisp.Decimal.Shortest
import QuotedLisp.Proofs.Binary64.Exact

/-!
# Written numbers read back

A finite number is written as digits, perhaps with a point between them, and reads back as itself.
The search for its digits ends at the latest on the grid that holds every double, where nothing is
rounded (`exact_reads_back`), and positional notation spells the decimal that was found, or one of
the same value (`ofText?_toText`).
-/

namespace QuotedLisp

namespace Decimal

/-- Digits without value after a row of digits shift it. -/
theorem ofDigits_append_zeros (digits : List Char) (count : Nat) :
    ofDigits (digits ++ List.replicate count '0') = ofDigits digits * Nat.pow 10 count := by
  induction count with
  | zero => simp
  | succ count ih =>
      rw [List.replicate_succ', ← List.append_assoc, ofDigits, List.foldl_append]
      show 10 * ofDigits (digits ++ List.replicate count '0') + ('0'.toNat - '0'.toNat) = _
      rw [ih, Nat.sub_self, Nat.add_zero, Nat.mul_left_comm]
      congr 1
      exact Nat.mul_comm 10 _

/-- Zeros before a row of digits do not count. -/
theorem ofDigits_zeros_append (count : Nat) (digits : List Char) :
    ofDigits (List.replicate count '0' ++ digits) = ofDigits digits := by
  induction count with
  | zero => rfl
  | succ count ih => exact ih

/-- The digits of a number spell it. -/
theorem ofDigits_toDigits (n : Nat) : ofDigits (Nat.toDigits 10 n) = n :=
  Nat.ofDigitChars_ten_toDigits

/-- Every character is a decimal digit. -/
abbrev Digits (text : List Char) : Prop :=
  ∀ c ∈ text, c.isDigit

/-- The digits of a number are digits. -/
theorem digits_toDigits (n : Nat) : Digits (Nat.toDigits 10 n) := fun _ hc =>
  Nat.isDigit_of_mem_toDigits (by omega) (by omega) hc

/-- A row of zeros consists of digits. -/
theorem digits_zeros (count : Nat) : Digits (List.replicate count '0') := fun c hc => by
  rw [List.eq_of_mem_replicate hc]
  rfl

/-- Two rows of digits make one. -/
theorem Digits.append {first second : List Char} (hfirst : Digits first)
    (hsecond : Digits second) : Digits (first ++ second) := fun c hc =>
  (List.mem_append.mp hc).elim (hfirst c) (hsecond c)

/-- A whole number is written with digits only, and an integer power of ten is written out. -/
theorem toText_whole {d : Decimal} (h : 0 ≤ d.exponent) :
    d.toText ≠ [] ∧ Digits d.toText ∧
      ofDigits d.toText = d.coefficient * Nat.pow 10 d.exponent.toNat := by
  have htext : d.toText = Nat.toDigits 10 d.coefficient ++
      List.replicate d.exponent.toNat '0' := by
    simp [toText, h]
  refine ⟨?_, ?_, ?_⟩
  · rw [htext]
    exact List.append_ne_nil_of_left_ne_nil Nat.toDigits_ne_nil _
  · rw [htext]
    exact (digits_toDigits _).append (digits_zeros _)
  · rw [htext, ofDigits_append_zeros, ofDigits_toDigits]

/-- A decimal with places has digits on both sides of a point. -/
theorem toText_places {d : Decimal} (h : d.exponent < 0) :
    ∃ whole places, d.toText = whole ++ '.' :: places ∧ whole ≠ [] ∧ Digits whole ∧
      Digits places ∧ ofDigits (whole ++ places) = d.coefficient ∧
      (places.length : Int) = -d.exponent := by
  obtain ⟨count, hcount⟩ : ∃ count : Nat, -d.exponent = count := ⟨(-d.exponent).toNat, by omega⟩
  have hnat : (-d.exponent).toNat = count := by omega
  let digits := Nat.toDigits 10 d.coefficient
  let padded := List.replicate (count + 1 - digits.length) '0' ++ digits
  have hlength : count + 1 ≤ padded.length := by
    simp only [padded, List.length_append, List.length_replicate]
    omega
  have hdigits : Digits padded := (digits_zeros _).append (digits_toDigits _)
  refine ⟨padded.take (padded.length - count), padded.drop (padded.length - count), ?_, ?_, ?_, ?_,
    ?_, ?_⟩
  · have hneg : ¬ 0 ≤ d.exponent := by omega
    simp only [toText, if_neg hneg, hnat, padded, digits]
  · intro hnil
    have := congrArg List.length hnil
    simp only [List.length_take, List.length_nil] at this
    omega
  · exact fun c hc => hdigits c (List.mem_of_mem_take hc)
  · exact fun c hc => hdigits c (List.mem_of_mem_drop hc)
  · rw [List.take_append_drop, ofDigits_zeros_append, ofDigits_toDigits]
  · rw [List.length_drop, hcount]
    omega

/-- Digits are taken as long as there are any. -/
theorem takeWhile_digits {digits : List Char} (rest : List Char) (h : Digits digits)
    (hrest : ∀ c ∈ rest.head?, c.isDigit = false) :
    (digits ++ rest).takeWhile Char.isDigit = digits ∧
      (digits ++ rest).dropWhile Char.isDigit = rest := by
  rw [List.takeWhile_append_of_pos h, List.dropWhile_append_of_pos h]
  cases rest with
  | nil => simp
  | cons c rest => simp [hrest c rfl]

/-- A row of digits reads as a whole number. -/
theorem ofText?_whole {whole : List Char} (hne : whole ≠ []) (h : Digits whole) :
    ofText? whole = some ⟨ofDigits whole, 0⟩ := by
  obtain ⟨htake, hdrop⟩ := takeWhile_digits [] h (by simp)
  rw [List.append_nil] at htake hdrop
  simp [ofText?, htake, hdrop, hne, exponent?]

/-- Digits around a point read as a number with as many places as digits after the point. -/
theorem ofText?_point {whole places : List Char} (hne : ¬ (whole = [] ∧ places = []))
    (hwhole : Digits whole) (hplaces : Digits places) :
    ofText? (whole ++ '.' :: places) =
      some ⟨ofDigits (whole ++ places), -(places.length : Int)⟩ := by
  obtain ⟨htake, hdrop⟩ := takeWhile_digits ('.' :: places) hwhole (by simp)
  obtain ⟨htake', hdrop'⟩ := takeWhile_digits [] hplaces (by simp)
  rw [List.append_nil] at htake' hdrop'
  simp [ofText?, htake, hdrop, htake', hdrop', hne, exponent?]

/-- Reading a decimal does not look at the sign. -/
theorem toBinary64_with_sign {d : Decimal} {x : Binary64.Finite}
    (h : d.toBinary64 false = .finite x) (negative : Bool) :
    d.toBinary64 negative = .finite (x.withSign negative) := by
  unfold toBinary64 at h ⊢
  split at h
  · rw [if_pos ‹_›]
    cases h
    rfl
  · rw [if_neg ‹_›]
    split at h
    · cases h
    · rw [if_neg ‹_›]
      split at h
      · rw [if_pos ‹_›]
        cases h
        rfl
      · rw [if_neg ‹_›]
        split at h
        · rw [if_pos ‹_›]
          exact Binary64.ofRatio_with_sign h negative
        · rw [if_neg ‹_›]
          exact Binary64.ofRatio_with_sign h negative

/-- A decimal without places is a whole number of units. -/
theorem toBinary64_of_nonneg {coefficient : Nat} {exponent : Int} (negative : Bool)
    (hne : coefficient ≠ 0) (hexponent : 0 ≤ exponent) (hmax : exponent ≤ 310) :
    toBinary64 negative ⟨coefficient, exponent⟩ =
      .ofRatio negative (coefficient * Nat.pow 10 exponent.toNat * Binary64.unitsPerOne) 1 := by
  have hlow : ¬ exponent < -(coefficient.log2 + 400 : Nat) := by omega
  have hhigh : ¬ 310 < exponent := by omega
  simp only [toBinary64, if_neg hne, if_neg hhigh, if_neg hlow, if_pos hexponent]

/-- A decimal with places, unless it is too small for a double, is a quotient by a power of
ten. -/
theorem toBinary64_of_neg {coefficient : Nat} {exponent : Int} (negative : Bool)
    (hne : coefficient ≠ 0) (hexponent : exponent < 0)
    (hmin : -(coefficient.log2 + 400 : Nat) ≤ exponent) :
    toBinary64 negative ⟨coefficient, exponent⟩ =
      .ofRatio negative (coefficient * Binary64.unitsPerOne) (Nat.pow 10 (-exponent).toNat) := by
  have hlow : ¬ exponent < -(coefficient.log2 + 400 : Nat) := by omega
  have hhigh : ¬ 310 < exponent := by omega
  have hneg : ¬ 0 ≤ exponent := by omega
  simp only [toBinary64, if_neg hne, if_neg hhigh, if_neg hlow, if_neg hneg]

/-- A power of ten may be written out. -/
theorem toBinary64_whole {coefficient : Nat} {exponent : Int} {negative : Bool}
    {x : Binary64.Finite} (h : toBinary64 negative ⟨coefficient, exponent⟩ = .finite x)
    (hexponent : 0 ≤ exponent) :
    toBinary64 negative ⟨coefficient * Nat.pow 10 exponent.toNat, 0⟩ = .finite x := by
  by_cases hzero : coefficient = 0
  · subst hzero
    simpa [toBinary64] using h
  · by_cases hmax : exponent ≤ 310
    · have hpos : 0 < Nat.pow 10 exponent.toNat := Nat.pow_pos (by omega)
      rw [toBinary64_of_nonneg negative hzero hexponent hmax] at h
      rw [toBinary64_of_nonneg negative (Nat.mul_ne_zero hzero (by omega)) (by omega) (by omega)]
      simpa using h
    · have hhigh : 310 < exponent := by omega
      simp only [toBinary64, if_neg hzero, if_pos hhigh] at h
      cases h

/-- A decimal that stands for a finite number is read back as that number from its text. -/
theorem reads_back {d : Decimal} {negative : Bool} {x : Binary64.Finite}
    (h : d.toBinary64 negative = .finite x) :
    ∃ d', ofText? d.toText = some d' ∧ d'.toBinary64 negative = .finite x := by
  by_cases hexponent : 0 ≤ d.exponent
  · obtain ⟨hne, hdigits, hvalue⟩ := toText_whole hexponent
    refine ⟨_, ofText?_whole hne hdigits, ?_⟩
    rw [hvalue]
    exact toBinary64_whole h hexponent
  · obtain ⟨whole, places, htext, hne, hwhole, hplaces, hvalue, hlength⟩ :=
      toText_places (d := d) (by omega)
    refine ⟨_, htext ▸ ofText?_point (fun hnil => hne hnil.1) hwhole hplaces, ?_⟩
    rw [hvalue, hlength, Int.neg_neg]
    exact h

/-- A multiple of a power of five has at least as many binary digits as that power of two. -/
theorem le_log2_mul_five_pow {n : Nat} (hn : 0 < n) (count : Nat) :
    n * Nat.pow 5 count ≠ 0 ∧ count ≤ (n * Nat.pow 5 count).log2 := by
  have hfive : 0 < Nat.pow 5 count := Nat.pow_pos (by omega)
  have hne : n * Nat.pow 5 count ≠ 0 := Nat.mul_ne_zero (by omega) (by omega)
  refine ⟨hne, (Nat.le_log2 hne).mpr ?_⟩
  calc Nat.pow 2 count ≤ Nat.pow 5 count := Nat.pow_le_pow_left (by omega) _
    _ ≤ n * Nat.pow 5 count := Nat.le_mul_of_pos_left _ hn

/-- A magnitude is not rounded when it is read on the grid of a power of ten, if the power of two
that belongs to it counts the units in one. -/
theorem five_pow_reads_back {x : Binary64.Finite} (hx : x.mant ≠ 0) (count : Nat)
    (hcount : 0 < count) (hunits : Binary64.unitsPerOne = Nat.pow 2 count) :
    toBinary64 false ⟨x.magnitude * Nat.pow 5 count, -(count : Int)⟩ =
      .finite (x.withSign false) := by
  have hmagnitude : 0 < x.magnitude :=
    Nat.mul_pos (Nat.pos_of_ne_zero hx) (Nat.two_pow_pos x.exp)
  obtain ⟨hne, hlog⟩ := le_log2_mul_five_pow hmagnitude count
  have hten : x.magnitude * Nat.pow 5 count * Nat.pow 2 count =
      x.magnitude * Nat.pow 10 count := by
    rw [Nat.mul_assoc]
    exact congrArg _ (Nat.mul_pow 5 2 count).symm
  rw [toBinary64_of_neg false hne (by omega) (by omega), Int.neg_neg, Int.toNat_natCast, hunits,
    hten]
  exact Binary64.ofRatio_magnitude false x (Nat.pow_pos (by omega))

/-- On the finest grid a number is written out in full, and is not rounded when it is read. -/
theorem exact_reads_back {x : Binary64.Finite} (hx : x.mant ≠ 0) :
    (onGrid (x.magnitude * Nat.pow 5 1074) 0).toBinary64 false =
      .finite (x.withSign false) :=
  five_pow_reads_back hx 1074 (by omega) (by unfold Binary64.unitsPerOne; rfl)

/-- A neighbour that is accepted reads back. -/
theorem neighbour?_reads_back {number : Binary64} {exact place : Nat} {d : Decimal}
    (h : neighbour? number exact place = some d) : d.toBinary64 false = number := by
  simp only [neighbour?, Bool.and_eq_true, beq_iff_eq] at h
  split at h
  · cases h
    exact ‹_ ∧ _›.1
  · split at h
    · cases h
      assumption
    · cases h

/-- Whatever the search finds reads back, if the finest grid does. -/
theorem search_reads_back {number : Binary64} {exact : Nat}
    (h : (onGrid exact 0).toBinary64 false = number) (place : Nat) :
    (searchFrom number exact place).toBinary64 false = number := by
  induction place with
  | zero => exact h
  | succ place ih =>
      unfold searchFrom
      cases hfound : neighbour? number exact (place + 1) with
      | none => exact ih
      | some d => exact neighbour?_reads_back hfound

/-- The shortest decimal of a magnitude reads back, with either sign. -/
theorem ofMagnitude_reads_back {x : Binary64.Finite} (hx : x.mant ≠ 0) (negative : Bool) :
    (ofMagnitude x).toBinary64 negative = .finite (x.withSign negative) :=
  toBinary64_with_sign (search_reads_back (exact_reads_back hx) _) negative

/-- The text of a decimal begins with a digit. -/
theorem toText_head (d : Decimal) : ∃ c rest, d.toText = c :: rest ∧ c.isDigit := by
  by_cases hexponent : 0 ≤ d.exponent
  · obtain ⟨hne, hdigits, -⟩ := toText_whole hexponent
    obtain ⟨c, rest, htext⟩ := List.exists_cons_of_ne_nil hne
    exact ⟨c, rest, htext, hdigits c (by simp [htext])⟩
  · obtain ⟨whole, places, htext, hne, hwhole, -⟩ := toText_places (d := d) (by omega)
    obtain ⟨c, rest, rfl⟩ := List.exists_cons_of_ne_nil hne
    exact ⟨c, rest ++ '.' :: places, htext, hwhole c (by simp)⟩

end Decimal

namespace Binary64

/-- A digit is no sign, so an unsigned text has none to split off. -/
theorem split_sign_digit {c : Char} {rest : List Char} (h : c.isDigit) :
    Decimal.splitSign (c :: rest) = (false, c :: rest) := by
  unfold Decimal.splitSign
  split
  · rename_i hc
    cases hc
    exact absurd h (by decide)
  · rename_i hc
    cases hc
    exact absurd h (by decide)
  · rfl

/-- The sign of a written number is split off again. -/
theorem split_sign_text (negative : Bool) {text : List Char} {c : Char} {rest : List Char}
    (htext : text = c :: rest) (h : c.isDigit) :
    Decimal.splitSign (signText negative ++ text) = (negative, text) := by
  subst htext
  cases negative with
  | false => exact split_sign_digit h
  | true => rfl

/-- A finite number reads back from its text. -/
theorem ofText?_toText (x : Finite) :
    ofText? (toText (.finite x)) = some (.finite x) := by
  by_cases hzero : x.mant = 0
  · rw [x.eq_zero_of_mant hzero]
    cases x.negative <;> decide
  · obtain ⟨c, rest, htext, hdigit⟩ := (Decimal.ofMagnitude x).toText_head
    obtain ⟨d, hread, hvalue⟩ :=
      Decimal.reads_back (Decimal.ofMagnitude_reads_back hzero x.negative)
    simp only [ofText?, toText, if_neg hzero, split_sign_text x.negative htext hdigit, hread,
      hvalue, Finite.with_sign_self]

end Binary64

end QuotedLisp
