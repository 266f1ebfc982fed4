import QuotedLisp.Proofs.Eval.Answers

/-!
# Arithmetic from the left

The four functions that combine numbers go through their arguments from the left, so the first of
them can be combined beforehand; see `arithmetic_groups_left`. `Total` says what the numbers
combined so far make, `Offends` what can be wrong with the next argument, and an error is always that
of the `Leftmost` argument that offends (`combination_cases`).
-/

namespace QuotedLisp.Builtin

/-- The functions that combine numbers, each with its operation and with what it computes. -/
inductive Combines : Builtin → (Binary64 → Binary64 → Binary64) →
    (List Value → Except RuntimeError Value) → Prop where
  | add : Combines .add Binary64.add sum
  | subtract : Combines .subtract Binary64.sub difference
  | multiply : Combines .multiply Binary64.mul product
  | divide : Combines .divide Binary64.div quotient

/-- A zero that a number would be divided by. -/
abbrev ZeroDivisor (b : Builtin) (y : Binary64) : Prop :=
  b = .divide ∧ y.isZero = true

/-- `Total b operation args t` says that the numbers combined from the left make the number, without
a zero divisor and without a number that is not finite on the way. -/
inductive Total (b : Builtin) (operation : Binary64 → Binary64 → Binary64) :
    List Value → Binary64 → Prop where
  | first (x) : Total b operation [.number x] x
  | next (before t y) :
      Total b operation before t → ¬ ZeroDivisor b y → (operation t y).isFinite = true →
      Total b operation (before ++ [.number y]) (operation t y)

/-- `Offends b operation before arg e` says that the argument, after those before it, is a cause of
the error. -/
inductive Offends (b : Builtin) (operation : Binary64 → Binary64 → Binary64) (before : List Value) :
    Value → RuntimeError → Prop where
  | notNumber (v) : (∀ x, v ≠ .number x) → Offends b operation before v (v.mismatch b.name "Number")
  | zeroDivisor (y) :
      before ≠ [] → ZeroDivisor b y →
      Offends b operation before (.number y) (.divisionByZero b.name)
  | overflow (t y) :
      Total b operation before t → ¬ ZeroDivisor b y → (operation t y).isFinite = false →
      Offends b operation before (.number y) (.outOfRange b.name)

/-- No argument before it offends. -/
def Leftmost (b : Builtin) (operation : Binary64 → Binary64 → Binary64) (before : List Value)
    (arg : Value) (e : RuntimeError) : Prop :=
  Offends b operation before arg e ∧
    ∀ earlier other between e', before = earlier ++ other :: between →
      ¬ Offends b operation earlier other e'

/-- There is no total of nothing. -/
theorem Total.ne_nil {b : Builtin} {operation : Binary64 → Binary64 → Binary64} {args : List Value}
    {t : Binary64} (h : Total b operation args t) : args ≠ [] := by
  cases h <;> simp

/-- The operation, unless it is a division by zero. -/
def guarded (b : Builtin) (operation : Binary64 → Binary64 → Binary64) (x y : Binary64) :
    Except RuntimeError Binary64 :=
  if ZeroDivisor b y then .error (.divisionByZero b.name) else .ok (operation x y)

/-- The arguments combined from the left. -/
abbrev combination (b : Builtin) (operation : Binary64 → Binary64 → Binary64) :
    List Value → Except RuntimeError Value :=
  foldNumbers b (guarded b operation)

section

variable {b : Builtin} {operation : Binary64 → Binary64 → Binary64}
  {compute : List Value → Except RuntimeError Value} {args before others : List Value} {arg : Value}
  {t u : Binary64} {e : RuntimeError}

/-- Only a division is guarded. -/
theorem guarded_of_ne (hb : b ≠ .divide) :
    guarded b operation = fun x y => .ok (operation x y) := by
  funext x y
  exact if_neg fun h => hb h.1

/-- A division is the guarded one. -/
theorem guarded_divide : guarded .divide operation = guardedDivision .divide operation := by
  funext x y
  simp [guarded, guardedDivision, ZeroDivisor]

/-- What each function computes is the combination of its arguments, unless there is only one. -/
theorem Combines.compute_eq (h : Combines b operation compute) (hargs : args.length ≠ 1) :
    compute args = combination b operation args := by
  cases h with
  | add | multiply =>
      rw [combination, guarded_of_ne (by decide)]
      rfl
  | subtract =>
      rw [combination, guarded_of_ne (by decide)]
      unfold difference
      split
      · exact absurd rfl hargs
      · rfl
  | divide =>
      rw [combination, guarded_divide]
      rfl

/-- Each function fails where the combination does. -/
theorem Combines.compute_error (h : Combines b operation compute)
    (he : combination b operation args = .error e) : compute args = .error e := by
  by_cases hargs : args.length = 1
  · obtain ⟨only, rfl⟩ := List.length_eq_one_iff.mp hargs
    have honly : only.expectNumber b.name = .error e := except_bind_ok_eq_error.mp he
    cases h <;> exact except_bind_eq_error.mpr (.inl honly)
  · rw [h.compute_eq hargs, he]

/-- The first arguments are combined first. -/
theorem combination_append (hargs : args ≠ []) (others : List Value) :
    combination b operation (args ++ others) =
      combination b operation args >>= fun r => combination b operation (r :: others) := by
  cases args with
  | nil => exact absurd rfl hargs
  | cons first rest =>
      simp only [combination, foldNumbers, List.cons_append, List.foldlM_append, bind_assoc]
      rfl

/-- A total that is known is where the combination starts. -/
theorem combination_number (t : Binary64) (arg : Value) (later : List Value) :
    combination b operation (.number t :: arg :: later) =
      foldStep b (guarded b operation) t arg >>=
        fun u => combination b operation (.number u :: later) := by
  simp only [combination, foldNumbers, List.foldlM_cons, bind_assoc]
  rfl

/-- A value that is no number is refused. -/
theorem expectNumber_error (b : Builtin) {v : Value} (h : ∀ x, v ≠ .number x) :
    v.expectNumber b.name = .error (v.mismatch b.name "Number") := by
  cases v with
  | number x => exact absurd rfl (h x)
  | string | identifier | list | builtin | closure | error => rfl

/-- A number is combined with the total, unless it is a zero divisor or leads out of range. -/
theorem foldStep_number (t y : Binary64) :
    foldStep b (guarded b operation) t (.number y) =
      if ZeroDivisor b y then .error (.divisionByZero b.name)
      else if (operation t y).isFinite then .ok (operation t y)
      else .error (.outOfRange b.name) := by
  show (guarded b operation t y >>= _) = _
  unfold guarded
  split <;> rfl

/-- The next argument after a total gives another, or it offends. -/
theorem Total.next_cases (h : Total b operation before t) (arg : Value) :
    (∃ u, Total b operation (before ++ [arg]) u) ∨ ∃ e, Offends b operation before arg e := by
  by_cases hnumber : ∃ y, arg = .number y
  · obtain ⟨y, rfl⟩ := hnumber
    by_cases hzero : ZeroDivisor b y
    · exact .inr ⟨_, .zeroDivisor y h.ne_nil hzero⟩
    · cases hfinite : (operation t y).isFinite with
      | true => exact .inl ⟨_, .next before t y h hzero hfinite⟩
      | false => exact .inr ⟨_, .overflow t y h hzero hfinite⟩
  · exact .inr ⟨_, .notNumber arg (not_exists.mp hnumber)⟩

/-- A total is what the combination is. -/
theorem Total.combination_eq (h : Total b operation args t) :
    combination b operation args = .ok (.number t) := by
  induction h with
  | first x => rfl
  | next before t y hbefore hzero hfinite ih =>
      rw [combination_append hbefore.ne_nil, ih]
      show combination b operation [.number t, .number y] = _
      rw [combination_number, foldStep_number, if_neg hzero, if_pos hfinite]
      rfl

/-- There is one total. -/
theorem Total.unique (h : Total b operation args t) (h' : Total b operation args u) : t = u := by
  have heq := h.combination_eq.symm.trans h'.combination_eq
  cases heq
  rfl

/-- The combination fails at an argument that offends, whatever comes after it. -/
theorem Offends.combination_eq (h : Offends b operation before arg e)
    (hbefore : before = [] ∨ ∃ t, Total b operation before t) (later : List Value) :
    combination b operation (before ++ arg :: later) = .error e := by
  rcases hbefore with rfl | ⟨t, ht⟩
  · cases h with
    | notNumber _ hnumber => exact except_bind_eq_error.mpr (.inl (expectNumber_error b hnumber))
    | zeroDivisor y hne => exact absurd rfl hne
    | overflow t y ht => exact absurd rfl ht.ne_nil
  · rw [combination_append ht.ne_nil, ht.combination_eq]
    show combination b operation (.number t :: arg :: later) = _
    rw [combination_number]
    refine except_bind_eq_error.mpr (.inl ?_)
    cases h with
    | notNumber _ hnumber => exact except_bind_eq_error.mpr (.inl (expectNumber_error b hnumber))
    | zeroDivisor y _ hzero => rw [foldStep_number, if_pos hzero]
    | overflow u y hu hzero hfinite =>
        obtain rfl := ht.unique hu
        rw [foldStep_number, if_neg hzero, hfinite]
        rfl

/-- After a total, the arguments that are left give another, or one of them offends. -/
theorem Total.append_cases (h : Total b operation before t) (rest : List Value) :
    (∃ u, Total b operation (before ++ rest) u) ∨
      ∃ middle arg after e, rest = middle ++ arg :: after ∧
        (∃ u, Total b operation (before ++ middle) u) ∧
        Offends b operation (before ++ middle) arg e := by
  induction rest generalizing before t with
  | nil => exact .inl ⟨t, by rwa [List.append_nil]⟩
  | cons arg rest ih =>
      rcases h.next_cases arg with ⟨u, hu⟩ | ⟨e, he⟩
      · have hlater := ih hu
        simp only [List.append_assoc, List.singleton_append] at hlater
        rcases hlater with hlater | ⟨middle, other, after, e, rfl, htotal, he⟩
        · exact .inl hlater
        · exact .inr ⟨arg :: middle, other, after, e, rfl, htotal, he⟩
      · rw [← List.append_nil before] at h he
        exact .inr ⟨[], arg, rest, e, rfl, ⟨t, h⟩, he⟩

/-- Arguments have a total, or one of them offends after arguments that have. -/
theorem total_cases (b : Builtin) (operation : Binary64 → Binary64 → Binary64) (hargs : args ≠ []) :
    (∃ t, Total b operation args t) ∨
      ∃ before arg after e, args = before ++ arg :: after ∧
        (before = [] ∨ ∃ t, Total b operation before t) ∧ Offends b operation before arg e := by
  cases args with
  | nil => exact absurd rfl hargs
  | cons first rest =>
      by_cases hnumber : ∃ x, first = .number x
      · obtain ⟨x, rfl⟩ := hnumber
        have hfirst : Total b operation [.number x] x := .first x
        rcases hfirst.append_cases rest with
          htotal | ⟨middle, arg, after, e, rfl, htotal, he⟩
        · exact .inl htotal
        · exact .inr ⟨.number x :: middle, arg, after, e, rfl, .inr htotal, he⟩
      · exact .inr ⟨[], first, rest, _, rfl, .inl rfl, .notNumber first (not_exists.mp hnumber)⟩

/-- An argument that offends leaves the arguments up to it, and any after it, without a total. -/
theorem Offends.no_total (h : Offends b operation before arg e) (later : List Value)
    (t : Binary64) : ¬ Total b operation (before ++ arg :: later) t := by
  intro ht
  have hok := ht.combination_eq
  by_cases hne : before = []
  · rw [h.combination_eq (.inl hne)] at hok
    cases hok
  · rcases total_cases b operation hne with
      htotal | ⟨earlier, other, between, e', rfl, hearlier, he'⟩
    · rw [h.combination_eq (.inr htotal)] at hok
      cases hok
    · rw [List.append_assoc, List.cons_append, he'.combination_eq hearlier] at hok
      cases hok

/-- The argument that offends and has none before it that does is the one after a total, or the
first. -/
theorem leftmost_iff :
    Leftmost b operation before arg e ↔
      Offends b operation before arg e ∧ (before = [] ∨ ∃ t, Total b operation before t) := by
  constructor
  · rintro ⟨h, hearlier⟩
    by_cases hne : before = []
    · exact ⟨h, .inl hne⟩
    · rcases total_cases b operation hne with
        htotal | ⟨earlier, other, between, e', heq, -, he'⟩
      · exact ⟨h, .inr htotal⟩
      · exact absurd he' (hearlier earlier other between e' heq)
  · rintro ⟨h, hbefore⟩
    refine ⟨h, ?_⟩
    rintro earlier other between e' rfl he'
    rcases hbefore with hnil | ⟨t, ht⟩
    · simp at hnil
    · exact he'.no_total between t ht

/-- A total of several numbers is finite. -/
theorem Total.isFinite (h : Total b operation args t) (hlength : 2 ≤ args.length) :
    t.isFinite = true := by
  cases h with
  | first => exact absurd hlength (Nat.not_succ_le_self 1)
  | next _ _ _ _ _ hfinite => exact hfinite

/-- A combination is a total, or it is refused for the leftmost argument that offends. -/
theorem combination_cases (b : Builtin) (operation : Binary64 → Binary64 → Binary64)
    (hargs : args ≠ []) :
    (∃ t, combination b operation args = .ok (.number t) ∧ Total b operation args t) ∨
      ∃ before arg after e, combination b operation args = .error e ∧
        args = before ++ arg :: after ∧ Leftmost b operation before arg e := by
  rcases total_cases b operation hargs with ⟨t, ht⟩ | ⟨before, arg, after, e, rfl, hbefore, he⟩
  · exact .inl ⟨t, ht.combination_eq, ht⟩
  · exact .inr ⟨before, arg, after, e, he.combination_eq hbefore after, rfl,
      leftmost_iff.mpr ⟨he, hbefore⟩⟩

/-- The functions on numbers can be called with the first of their arguments beforehand: what they
compute from two arguments or more takes the place of these arguments, before any others. A result
of two arguments or more is a finite number. An error is caused by the leftmost argument that
offends, which is no number, or a zero divisor, or leads out of range; and it does so whatever comes
after it. -/
theorem arithmetic_groups_left (h : Combines b operation compute) :
    (∀ host run args, b.apply host run args = Evaluation.ofExcept (compute args)) ∧
    (∀ args others, 2 ≤ args.length → others ≠ [] →
      (∀ r, compute args = .ok r → compute (args ++ others) = compute (r :: others)) ∧
      ∀ e, compute args = .error e → compute (args ++ others) = .error e) ∧
    (∀ args, 2 ≤ args.length →
      (∀ r, compute args = .ok r → ∃ x, r = .number x ∧ x.isFinite = true) ∧
      ∀ e, compute args = .error e →
        ∃ before arg after, args = before ++ arg :: after ∧ Leftmost b operation before arg e) ∧
    ∀ before arg e, Leftmost b operation before arg e →
      ∀ later, compute (before ++ arg :: later) = .error e := by
  have hcompute (args : List Value) (hargs : 2 ≤ args.length) :
      args ≠ [] ∧ compute args = combination b operation args :=
    ⟨List.ne_nil_of_length_pos (by omega), h.compute_eq (by omega)⟩
  refine ⟨fun host run args => ?_, fun args others hargs hothers => ?_, fun args hargs => ?_,
    fun before arg e hleftmost later => ?_⟩
  · cases h <;> rfl
  · obtain ⟨hne, heq⟩ := hcompute args hargs
    have hpos := List.length_pos_iff.mpr hothers
    have happend : compute (args ++ others) =
        combination b operation args >>= fun r => combination b operation (r :: others) := by
      rw [h.compute_eq (by rw [List.length_append]; omega), combination_append hne]
    rw [heq, happend]
    constructor
    · intro r hr
      rw [hr, h.compute_eq (by rw [List.length_cons]; omega)]
      rfl
    · intro e he
      rw [he]
      rfl
  · obtain ⟨hne, heq⟩ := hcompute args hargs
    rw [heq]
    rcases combination_cases b operation hne with
      ⟨t, hok, ht⟩ | ⟨before, arg, after, e, herror, hsplit, hleftmost⟩
    · rw [hok]
      refine ⟨?_, nofun⟩
      rintro r ⟨⟩
      exact ⟨t, rfl, ht.isFinite hargs⟩
    · rw [herror]
      refine ⟨nofun, ?_⟩
      rintro e' ⟨⟩
      exact ⟨before, arg, after, hsplit, hleftmost⟩
  · obtain ⟨hoffends, hbefore⟩ := leftmost_iff.mp hleftmost
    exact h.compute_error (hoffends.combination_eq hbefore later)

end

/-- The largest double. -/
def largest : Value :=
  .number (.finite ⟨false, Nat.pow 2 53 - 1, 2045, by decide⟩)

/-- The first two of three ones can be subtracted beforehand. A number past the largest is refused
before a string that comes later, and a negative zero as a divisor is the leftmost of three
arguments that offend. -/
theorem arithmetic_groups_left_offending :
    difference [.number .one, .number .one] = .ok (.number (.zero false)) ∧
      difference [.number .one, .number .one, .number .one] =
        difference [.number (.zero false), .number .one] ∧
      product [largest, largest, .string "x"] = .error (.outOfRange "*") ∧
      Leftmost .divide Binary64.div [.number .one] (.number (.zero true)) (.divisionByZero "/") ∧
      quotient [.number .one, .number (.zero true), .string "x", .number (.zero false)] =
        .error (.divisionByZero "/") := by
  have hzero : Binary64.sub .one .one = .zero false := by decide +kernel
  have htotal : Total .subtract Binary64.sub [.number .one, .number .one] (.zero false) :=
    hzero ▸ .next [.number .one] .one .one (.first .one) (by decide) (by decide +kernel)
  have hdifference : difference [.number .one, .number .one] = .ok (.number (.zero false)) :=
    (Combines.subtract.compute_eq (by decide)).trans htotal.combination_eq
  have hproduct : product [largest, largest] = .error (.outOfRange "*") := by decide +kernel
  have hleftmost : Leftmost .divide Binary64.div [.number .one] (.number (.zero true))
      (.divisionByZero "/") :=
    leftmost_iff.mpr ⟨.zeroDivisor _ (List.cons_ne_nil _ _) ⟨rfl, rfl⟩, .inr ⟨_, .first .one⟩⟩
  obtain ⟨-, hsubtract, -⟩ := arithmetic_groups_left .subtract
  obtain ⟨-, hmultiply, -⟩ := arithmetic_groups_left .multiply
  obtain ⟨-, -, -, hdivide⟩ := arithmetic_groups_left .divide
  refine ⟨hdifference, ?_, ?_, hleftmost, hdivide _ _ _ hleftmost _⟩
  · exact (hsubtract [.number .one, .number .one] [.number .one] (by decide) (by decide)).1 _
      hdifference
  · exact (hmultiply [largest, largest] [.string "x"] (by decide) (by decide)).2 _ hproduct

end QuotedLisp.Builtin
