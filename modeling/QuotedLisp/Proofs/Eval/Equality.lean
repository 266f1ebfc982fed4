import QuotedLisp.Eval.Session
import QuotedLisp.Proofs.Eval.Perform
import QuotedLisp.Proofs.Value.Equality
import QuotedLisp.Proofs.Results

/-!
# Equality of arguments

The builtin function for equality compares its first argument with each of the others. As equality
is the same from either side and passed on, this decides whether all arguments are equal to each
other, whatever their order; see `equal_partial_equivalence`.
-/

namespace QuotedLisp

namespace Builtin

/-- All values are equal to the first if each of them is. -/
theorem allEqual_eq_true {first : Value} {others : List Value} :
    allEqual first others = .ok true ↔ ∀ v ∈ others, first.equal? v = .ok true := by
  induction others with
  | nil => simp [allEqual]
  | cons other others ih =>
      rw [List.forall_mem_cons, allEqual]
      split
      · rename_i hother
        rw [ih]
        exact ⟨fun h => ⟨hother, h⟩, fun h => h.2⟩
      · rename_i hother
        exact ⟨fun h => absurd h hother, fun h => absurd h.1 hother⟩

/-- Whether all values are equal to the first has an answer, if the first can be compared. -/
theorem allEqual_ok {first : Value} (h : first.Comparable) (others : List Value) :
    ∃ answer, allEqual first others = .ok answer := by
  induction others with
  | nil => exact ⟨true, rfl⟩
  | cons other others ih =>
      obtain ⟨answer, hanswer⟩ := h.equal_ok other
      cases answer with
      | true =>
          obtain ⟨rest, hrest⟩ := ih
          exact ⟨rest, by rw [allEqual, hanswer, hrest]⟩
      | false => exact ⟨false, by rw [allEqual, hanswer]⟩

/-- Values are equal to each other if all are equal to the first. -/
theorem pairwise_equal_iff {first : Value} {others : List Value} :
    ((first :: others).Pairwise fun v other => v.equal? other = .ok true) ↔
      ∀ v ∈ others, first.equal? v = .ok true := by
  rw [List.pairwise_cons]
  refine ⟨fun h => h.1, fun h => ⟨h, ?_⟩⟩
  refine List.pairwise_of_forall_mem_list fun v hv other hother => ?_
  have hfirst : v.equal? first = .ok true := (v.equal_comm first).trans (h v hv)
  exact v.equal_trans hfirst (h other hother)

/-- Several arguments that can be compared are all equal or not, and equality tells which. -/
theorem equality_ok {args : List Value} (hlength : 2 ≤ args.length)
    (hargs : ∀ v ∈ args, v.Comparable) :
    ∃ answer, equality args = .ok (.ofBool answer) ∧
      (answer = true ↔ args.Pairwise fun v other => v.equal? other = .ok true) := by
  match args with
  | [] | [_] => simp at hlength
  | first :: second :: rest =>
      obtain ⟨answer, hanswer⟩ := allEqual_ok (hargs first List.mem_cons_self) (second :: rest)
      refine ⟨answer, ?_, ?_⟩
      · rw [equality, hanswer]
        rfl
      · rw [pairwise_equal_iff, ← allEqual_eq_true, hanswer, Except.ok.injEq]

end Builtin

/-- The equality of the language is a partial equivalence. It has the same answer, or the same
failure, from either side; it holds exactly between values of the same structure in which nothing is
a function or an error; and values that are equal to the same value are equal. So of several
arguments without functions and errors in them the builtin function tells whether each two of them
are equal, without a failure or an effect, in whatever order they are given. -/
theorem equal_partial_equivalence :
    (∀ v other : Value, v.equal? other = other.equal? v) ∧
    (∀ v other : Value, v.equal? other = .ok true ↔
      v.same other = true ∧ v.Comparable ∧ other.Comparable) ∧
    (∀ v other third : Value, v.equal? other = .ok true → other.equal? third = .ok true →
      v.equal? third = .ok true) ∧
    ∀ args : List Value, 2 ≤ args.length → (∀ v ∈ args, v.Comparable) →
      ∃ answer, (answer = true ↔ args.Pairwise fun v other => v.equal? other = .ok true) ∧
        ∀ others, others.Perm args → ∀ (w : World) (host : Host) (run : Runner),
          w.perform (call host run (.builtin .equal) others) = some (.ok (.ofBool answer), w) := by
  refine ⟨Value.equal_comm, Value.equal_eq_true, fun v _ _ => v.equal_trans, ?_⟩
  intro args hlength hargs
  obtain ⟨answer, -, hanswer⟩ := Builtin.equality_ok hlength hargs
  refine ⟨answer, hanswer, ?_⟩
  intro others hperm w host run
  obtain ⟨answer', hequality, hanswer'⟩ := Builtin.equality_ok (hperm.length_eq ▸ hlength)
    fun v hv => hargs v (hperm.mem_iff.mp hv)
  have hpairwise := hperm.pairwise_iff fun {v other} (h : v.equal? other = .ok true) =>
    (other.equal_comm v).trans h
  have hsame : answer' = answer := by
    rw [Bool.eq_iff_iff, hanswer', hanswer]
    exact hpairwise
  show w.perform (Evaluation.ofExcept (Builtin.equality others)) = _
  rw [World.perform_ofExcept, hequality, hsame]

/-- A list of a number and a string. -/
def paired (x : Binary64) (text : String) : Value :=
  .quoted [.number x, .string text]

/-- Lists that differ in the sign of a zero only. -/
def signedZeros : List Value :=
  [paired (.zero false) "a", paired (.zero true) "a", paired (.zero false) "a"]

/-- The zeros are equal with either sign, also inside lists, so such lists are equal in any
order. -/
theorem equal_partial_equivalence_zeros :
    (paired (.zero false) "a").equal? (paired (.zero true) "a") = .ok true ∧
      (paired (.zero true) "a").equal? (paired (.zero false) "a") = .ok true ∧
      (paired (.zero false) "a").equal? (paired (.zero false) "a") = .ok true ∧
      2 ≤ signedZeros.length ∧ (∀ v ∈ signedZeros, v.Comparable) ∧
      ∀ others, others.Perm signedZeros →
        World.bare.perform (call ⟨none, none⟩ (run ⟨none, none⟩ 1) (.builtin .equal) others) =
          some (.ok (.number .one), World.bare) := by
  obtain ⟨-, -, htrans, hargs⟩ := equal_partial_equivalence
  have hfirst : (paired (.zero false) "a").equal? (paired (.zero true) "a") = .ok true := by decide
  have hsecond : (paired (.zero true) "a").equal? (paired (.zero false) "a") = .ok true := by decide
  have hpaired (x : Binary64) (text : String) : (paired x text).Comparable := by
    refine .list .curly _ (List.forall_mem_cons.mpr ⟨.number x, ?_⟩)
    exact List.forall_mem_singleton.mpr (.string text)
  have hcomparable : ∀ v ∈ signedZeros, v.Comparable := by simp [signedZeros, hpaired]
  obtain ⟨answer, hanswer, hperm⟩ := hargs signedZeros (by decide) hcomparable
  obtain rfl : answer = true := hanswer.mpr (by decide)
  exact ⟨hfirst, hsecond, htrans _ _ _ hfirst hsecond, by decide, hcomparable,
    fun others hothers => hperm others hothers World.bare _ _⟩

end QuotedLisp
