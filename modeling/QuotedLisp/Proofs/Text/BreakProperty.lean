import QuotedLisp.Text.Grapheme

/-!
# Characters inside clusters

What the tables of break properties have to do with each other. The marks that may stand inside a
conjunct all extend clusters (`extends_of_conjunct`), and a character that ends a line or controls
layout is neither a consonant of a conjunct nor a pictograph (`not_consonant_of_separator`,
`not_pictograph_of_separator`). Each comes down to intervals that lie in others or lie apart, which
is checked on the tables.
-/

namespace QuotedLisp.Text

namespace Ranges

/-- Each interval of the first set lies in one of the second. -/
def within (inner outer : Ranges) : Bool :=
  inner.all fun range => outer.any fun other => other.1 ≤ range.1 && range.2 ≤ other.2

/-- No interval of the first set meets one of the second. -/
def apart (left right : Ranges) : Bool :=
  left.all fun range => right.all fun other => range.2 < other.1 || other.2 < range.1

variable {left right : Ranges} {codePoint : Nat}

/-- Some interval holds a code point of the set. -/
theorem contains_iff :
    left.contains codePoint = true ↔ ∃ range ∈ left, range.1 ≤ codePoint ∧ codePoint ≤ range.2 := by
  simp [contains]

/-- A code point of the inner set is one of the outer. -/
theorem contains_of_within (h : left.within right = true) (hleft : left.contains codePoint = true) :
    right.contains codePoint = true := by
  obtain ⟨range, hrange, hlow, hhigh⟩ := contains_iff.mp hleft
  obtain ⟨other, hother, hbounds⟩ := List.any_eq_true.mp (List.all_eq_true.mp h range hrange)
  simp only [Bool.and_eq_true, decide_eq_true_eq] at hbounds
  exact contains_iff.mpr ⟨other, hother, by omega, by omega⟩

/-- Sets of intervals that lie apart have no code point in common. -/
theorem not_contains_of_apart (h : left.apart right = true)
    (hleft : left.contains codePoint = true) : right.contains codePoint = false := by
  refine Bool.eq_false_iff.mpr fun hright => ?_
  obtain ⟨range, hrange, hlow, hhigh⟩ := contains_iff.mp hleft
  obtain ⟨other, hother, hlow', hhigh'⟩ := contains_iff.mp hright
  have hbounds := List.all_eq_true.mp (List.all_eq_true.mp h range hrange) other hother
  simp only [Bool.or_eq_true, decide_eq_true_eq] at hbounds
  omega

end Ranges

/-- The code points whose class is settled before that of the extending characters is looked up. -/
def plainRanges : Ranges :=
  [(0x0d, 0x0d), (0x0a, 0x0a), (0x200d, 0x200d), (0x20, 0x7e)]

/-- The code points of characters that end lines or control layout. -/
def separatorRanges : Ranges :=
  [(0x0d, 0x0d), (0x0a, 0x0a)] ++ controlRanges

/-- A separator is one of these. -/
theorem separatorRanges_contains {c : Char} (h : (BreakClass.of c).isSeparator = true) :
    separatorRanges.contains c.toNat = true := by
  by_cases hreturn : c.toNat = 0x0d
  · rw [hreturn]
    decide +kernel
  by_cases hnewline : c.toNat = 0x0a
  · rw [hnewline]
    decide +kernel
  cases hcontrol : controlRanges.contains c.toNat with
  | true =>
      exact Ranges.contains_of_within (by decide +kernel) hcontrol
  | false =>
      -- None of the classes that are left is one of a separator.
      simp only [BreakClass.of, if_neg hreturn, if_neg hnewline, hcontrol,
        apply_ite BreakClass.isSeparator] at h
      simp [BreakClass.isSeparator] at h

/-- Characters that are listed as extending a cluster have that class. -/
theorem of_extendRanges {c : Char} (h : extendRanges.contains c.toNat = true) :
    BreakClass.of c = .extend := by
  have hcontrol : controlRanges.contains c.toNat = false :=
    Ranges.not_contains_of_apart (by decide +kernel) h
  have hplain : plainRanges.contains c.toNat = false :=
    Ranges.not_contains_of_apart (by decide +kernel) h
  simp only [plainRanges, Ranges.contains, List.any_cons, List.any_nil, Bool.or_eq_false_iff,
    Bool.and_eq_false_iff, decide_eq_false_iff_not] at hplain
  unfold BreakClass.of
  simp only [hcontrol, h]
  rw [if_neg (by omega), if_neg (by omega), if_neg (by omega), if_neg (by omega)]
  rfl

/-- A class that extends clusters is none of a separator. -/
theorem BreakClass.not_separator {before : BreakClass} (h : before.extendsLeft = true) :
    before.isSeparator = false := by
  cases before with
  | extend | joiner | spacingMark => rfl
  | carriageReturn | lineFeed | control | regionalIndicator | leadingPart | leadingJamo
  | vowelJamo | trailingJamo | openSyllable | closedSyllable | other => cases h

/-- A sign that links consonants extends a cluster, and so does what may stand between them. -/
theorem extends_of_conjunct {c : Char} (h : (isConjunctLinker c || isConjunctExtend c) = true) :
    (BreakClass.of c).extendsLeft = true := by
  have hlisted : extendRanges.contains c.toNat = true ∨ c.toNat = 0x200d := by
    rcases Bool.or_eq_true_iff.mp h with hlinker | hextend
    · exact .inl (Ranges.contains_of_within (by decide +kernel) hlinker)
    · simp only [isConjunctExtend, Bool.and_eq_true, Bool.or_eq_true, beq_iff_eq] at hextend
      exact hextend.1.1
  rcases hlisted with hextend | hjoiner
  · rw [of_extendRanges hextend]
    rfl
  · simp [BreakClass.of, hjoiner, BreakClass.extendsLeft]

/-- A consonant that takes part in conjuncts is no separator. -/
theorem not_consonant_of_separator {c : Char} (h : (BreakClass.of c).isSeparator = true) :
    isConjunctConsonant c = false :=
  Ranges.not_contains_of_apart (by decide +kernel) (separatorRanges_contains h)

/-- A pictograph is no separator. -/
theorem not_pictograph_of_separator {c : Char} (h : (BreakClass.of c).isSeparator = true) :
    isPictograph c = false :=
  Ranges.not_contains_of_apart (by decide +kernel) (separatorRanges_contains h)

end QuotedLisp.Text
