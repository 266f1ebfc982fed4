import QuotedLisp.Eval.Run
import QuotedLisp.Proofs.Eval.Arguments

/-!
# What builtin functions answer

The functions that neither evaluate code nor change anything have answers of a few forms: numbers,
strings, lists of items of their arguments, and closures made of them. There is an inversion for
each function.
-/

namespace QuotedLisp

namespace Builtin

variable {b : Builtin} {args : List Value} {v : Value}

/-- A fold on numbers answers a number. -/
theorem foldNumbers_eq_ok {operation : Binary64 → Binary64 → Except RuntimeError Binary64}
    (h : foldNumbers b operation args = .ok v) : ∃ x, v = .number x := by
  cases args with
  | nil => cases h
  | cons first rest =>
      obtain ⟨start, -, h⟩ := except_bind_eq_ok.mp h
      obtain ⟨total, -, heq⟩ := except_bind_eq_ok.mp h
      cases heq
      exact ⟨total, rfl⟩

/-- The difference is a number. -/
theorem difference_eq_ok (h : difference args = .ok v) : ∃ x, v = .number x := by
  unfold difference at h
  split at h
  · obtain ⟨x, -, heq⟩ := except_bind_eq_ok.mp h
    cases heq
    exact ⟨x.neg, rfl⟩
  · exact foldNumbers_eq_ok h

/-- The remainder is a number. -/
theorem remainder_eq_ok (h : remainder args = .ok v) : ∃ x, v = .number x := by
  unfold remainder at h
  split at h
  · obtain ⟨x, -, h⟩ := except_bind_eq_ok.mp h
    obtain ⟨y, -, h⟩ := except_bind_eq_ok.mp h
    obtain ⟨result, -, heq⟩ := except_bind_eq_ok.mp h
    cases heq
    exact ⟨result, rfl⟩
  · cases h

/-- A comparison answers a truth value. -/
theorem comparison_eq_ok {relation : Binary64 → Binary64 → Bool}
    (h : comparison b relation args = .ok v) : ∃ answer, v = .ofBool answer := by
  unfold comparison at h
  split at h
  · obtain ⟨x, -, h⟩ := except_bind_eq_ok.mp h
    obtain ⟨y, -, heq⟩ := except_bind_eq_ok.mp h
    cases heq
    exact ⟨relation x y, rfl⟩
  · cases h

/-- Equality answers a truth value. -/
theorem equality_eq_ok (h : equality args = .ok v) : ∃ answer, v = .ofBool answer := by
  unfold equality at h
  split at h
  · obtain ⟨answer, -, heq⟩ := except_bind_eq_ok.mp h
    cases heq
    exact ⟨answer, rfl⟩
  · cases h

/-- The first part is a string, or the first item of a list in a list of its own. -/
theorem first_eq_ok (h : first args = .ok v) :
    (∃ text, v = .string text) ∨
      ∃ item rest, args = [.quoted (item :: rest)] ∧ v = .quoted [item] := by
  unfold first at h
  split at h
  · split at h
    · cases h
    · cases h
      exact .inl ⟨_, rfl⟩
  · obtain ⟨items, hitems, hanswer⟩ := except_bind_eq_ok.mp h
    obtain rfl := Value.expectQuoted_eq_ok.mp hitems
    split at hanswer
    · cases hanswer
    · cases hanswer
      exact .inr ⟨_, _, rfl, rfl⟩
  · cases h

/-- What follows the first part is a string, or the other items of a list. -/
theorem afterFirst_eq_ok (h : afterFirst args = .ok v) :
    (∃ text, v = .string text) ∨
      ∃ item rest, args = [.quoted (item :: rest)] ∧ v = .quoted rest := by
  unfold afterFirst at h
  split at h
  · split at h
    · cases h
    · cases h
      exact .inl ⟨_, rfl⟩
  · obtain ⟨items, hitems, hanswer⟩ := except_bind_eq_ok.mp h
    obtain rfl := Value.expectQuoted_eq_ok.mp hitems
    split at hanswer
    · cases hanswer
    · cases hanswer
      exact .inr ⟨_, _, rfl, rfl⟩
  · cases h

/-- What is joined is a string, or the items of lists in turn. -/
theorem concatenation_eq_ok (h : concatenation args = .ok v) :
    (∃ text, v = .string text) ∨
      ∃ lists : List (List Value), args = lists.map Value.quoted ∧ v = .quoted lists.flatten := by
  unfold concatenation at h
  split at h
  · cases h
  · obtain ⟨texts, -, heq⟩ := except_bind_eq_ok.mp h
    cases heq
    exact .inl ⟨_, rfl⟩
  · obtain ⟨lists, hlists, heq⟩ := except_bind_eq_ok.mp h
    cases heq
    have hargs := (mapM_eq_ok (fun v items => @Value.expectQuoted_eq_ok _ v items) _ _).mp hlists
    exact .inr ⟨lists, hargs, rfl⟩

/-- A failure is no answer. -/
theorem failure_ne_ok : failure args ≠ .ok v := by
  intro h
  unfold failure at h
  split at h
  · obtain ⟨message, -, heq⟩ := except_bind_eq_ok.mp h
    cases heq
  · cases h

end Builtin

/-- A closure is made of a list of well-placed names and a list, and it holds nothing. -/
theorem Closure.make_eq_ok {args : List Value} {v : Value} :
    Closure.make args = .ok v ↔ ∃ formals body,
      args = [.quoted (formals.map .identifier), .quoted body] ∧ wellPlaced formals = true ∧
        v = .closure [] formals .curly body := by
  constructor
  · intro h
    unfold Closure.make at h
    split at h
    · obtain ⟨formals, hformals, h⟩ := except_bind_eq_ok.mp h
      obtain ⟨body, hbody, hanswer⟩ := except_bind_eq_ok.mp h
      obtain rfl := Value.expectIdentifiers_eq_ok.mp hformals
      obtain rfl := Value.expectQuoted_eq_ok.mp hbody
      split at hanswer
      · cases hanswer
        exact ⟨formals, body, rfl, ‹_›, rfl⟩
      · cases hanswer
    · cases h
  · rintro ⟨formals, body, rfl, hplaced, rfl⟩
    have hformals := (@Value.expectIdentifiers_eq_ok Builtin.lambda.name
      (.quoted (formals.map .identifier)) formals).mpr rfl
    unfold Closure.make
    refine except_bind_eq_ok.mpr ⟨formals, hformals, except_bind_eq_ok.mpr ⟨body, rfl, ?_⟩⟩
    rw [if_pos hplaced]

end QuotedLisp
