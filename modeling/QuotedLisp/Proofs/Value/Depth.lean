import QuotedLisp.Value.Parser

/-!
# Bracket depth

The depth of a token list is the number of brackets that it opens less the number of those that it
closes, of either kind. The bracket that closes the first one stands where the depth returns to
zero for the first time, and there is none if it never does; see `close_index_cases`. So the tokens
between the two have no prefix of negative depth, and depth zero as a whole
(`ReturnsAt.balanced`), and what follows the second bracket does not matter
(`close_index_append`).
-/

namespace QuotedLisp

/-- What a token adds to the depth. -/
def Token.weight (t : Token) : Int :=
  match t.kind with
  | .opening => 1
  | .closing => -1
  | _ => 0

/-- How many more brackets are opened than closed. -/
def depth : List Token → Int
  | [] => 0
  | t :: rest => t.weight + depth rest

@[simp] theorem depth_nil : depth [] = 0 := rfl

@[simp] theorem depth_cons (t : Token) (rest : List Token) :
    depth (t :: rest) = t.weight + depth rest := rfl

@[simp] theorem depth_append (first second : List Token) :
    depth (first ++ second) = depth first + depth second := by
  induction first with
  | nil => simp
  | cons t first ih => simp [ih, Int.add_assoc]

theorem Token.weight_opening {t : Token} (h : t.kind = .opening) : t.weight = 1 := by
  rw [weight, h]

theorem Token.weight_closing {t : Token} (h : t.kind = .closing) : t.weight = -1 := by
  rw [weight, h]

theorem Token.closing_of_weight {t : Token} (h : t.weight = -1) : t.kind = .closing := by
  obtain ⟨kind, text⟩ := t
  cases kind with
  | closing => rfl
  | _ => cases h

theorem Token.neg_one_le_weight (t : Token) : -1 ≤ t.weight := by
  unfold weight
  split <;> decide

theorem Token.weight_atom {t : Token} (hopen : t.kind ≠ .opening) (hclose : t.kind ≠ .closing) :
    t.weight = 0 := by
  obtain ⟨kind, text⟩ := t
  cases kind with
  | opening => exact absurd rfl hopen
  | closing => exact absurd rfl hclose
  | _ => rfl

/-- A token that is no bracket leaves the depth as it is. -/
theorem close_index_from_atom {t : Token} (hopen : t.kind ≠ .opening) (hclose : t.kind ≠ .closing)
    (depth : Nat) (rest : List Token) :
    closeIndexFrom depth (t :: rest) = (closeIndexFrom depth rest).map (· + 1) := by
  obtain ⟨kind, text⟩ := t
  cases kind with
  | opening => exact absurd rfl hopen
  | closing => exact absurd rfl hclose
  | _ => rfl

/-- An opening token adds to the depth. -/
theorem close_index_from_opening {t : Token} (h : t.kind = .opening) (depth : Nat)
    (rest : List Token) :
    closeIndexFrom depth (t :: rest) = (closeIndexFrom (depth + 1) rest).map (· + 1) := by
  obtain ⟨kind, text⟩ := t
  obtain rfl : kind = .opening := h
  rfl

/-- A closing token ends the span at depth one, and takes from a greater depth. -/
theorem close_index_from_closing {t : Token} (h : t.kind = .closing) (depth : Nat)
    (rest : List Token) :
    closeIndexFrom 1 (t :: rest) = some 0 ∧
      closeIndexFrom (depth + 2) (t :: rest) =
        (closeIndexFrom (depth + 1) rest).map (· + 1) := by
  obtain ⟨kind, text⟩ := t
  obtain rfl : kind = .closing := h
  exact ⟨rfl, rfl⟩

/-- From this depth, the tokens up to the index and no fewer lead back to zero. -/
structure ReturnsAt (start : Int) (tokens : List Token) (index : Nat) : Prop where
  lt_length : index < tokens.length
  zero : start + depth (tokens.take (index + 1)) = 0
  before : ∀ n ≤ index, 0 < start + depth (tokens.take n)

/-- From this depth, no tokens lead back to zero. -/
def Stays (start : Int) (tokens : List Token) : Prop :=
  ∀ n, 0 < start + depth (tokens.take n)

/-- One more token in front, after which the depth is not zero. -/
theorem ReturnsAt.cons {start : Int} {t : Token} {rest : List Token} {index : Nat}
    (hstart : 0 < start) (h : ReturnsAt (start + t.weight) rest index) :
    ReturnsAt start (t :: rest) (index + 1) where
  lt_length := Nat.succ_lt_succ h.lt_length
  zero := by
    rw [List.take_succ_cons, depth_cons, ← Int.add_assoc]
    exact h.zero
  before n hn := by
    cases n with
    | zero => simpa using hstart
    | succ n =>
        rw [List.take_succ_cons, depth_cons, ← Int.add_assoc]
        exact h.before n (Nat.le_of_succ_le_succ hn)

/-- One more token in front, after which the depth is not zero. -/
theorem Stays.cons {start : Int} {t : Token} {rest : List Token} (hstart : 0 < start)
    (h : Stays (start + t.weight) rest) : Stays start (t :: rest) := by
  intro n
  cases n with
  | zero => simpa using hstart
  | succ n =>
      rw [List.take_succ_cons, depth_cons, ← Int.add_assoc]
      exact h n

/-- The depth returns to zero for the first time at one place. -/
theorem ReturnsAt.unique {start : Int} {tokens : List Token} {index other : Nat}
    (h : ReturnsAt start tokens index) (h' : ReturnsAt start tokens other) : index = other := by
  rcases Nat.lt_trichotomy index other with hlt | heq | hlt
  · exact absurd h.zero (Int.ne_of_gt (h'.before (index + 1) hlt))
  · exact heq
  · exact absurd h'.zero (Int.ne_of_gt (h.before (other + 1) hlt))

/-- What follows does not matter. -/
theorem ReturnsAt.append {start : Int} {tokens : List Token} {index : Nat}
    (h : ReturnsAt start tokens index) (later : List Token) :
    ReturnsAt start (tokens ++ later) index where
  lt_length := by
    rw [List.length_append]
    exact Nat.lt_add_right _ h.lt_length
  zero := by
    rw [List.take_append_of_le_length h.lt_length]
    exact h.zero
  before n hn := by
    rw [List.take_append_of_le_length (Nat.le_of_lt (Nat.lt_of_le_of_lt hn h.lt_length))]
    exact h.before n hn

/-- As many brackets are opened as closed, and each is opened before it is closed. -/
structure Balanced (tokens : List Token) : Prop where
  zero : depth tokens = 0
  nonneg : ∀ n, 0 ≤ depth (tokens.take n)

/-- What stands between a bracket and the one that closes it is balanced. -/
theorem ReturnsAt.balanced {tokens : List Token} {index : Nat} (h : ReturnsAt 1 tokens index) :
    Balanced (tokens.take index) where
  zero := by
    have hzero := h.zero
    have hbefore := h.before index (Nat.le_refl index)
    have hlt := h.lt_length
    have hweight := Token.neg_one_le_weight tokens[index]
    rw [List.take_succ_eq_append_getElem hlt, depth_append, depth_cons, depth_nil] at hzero
    omega
  nonneg n := by
    have hbefore := h.before (min n index) (Nat.min_le_right n index)
    rw [List.take_take]
    omega

/-- The token there is one that closes a bracket. -/
theorem ReturnsAt.split {tokens : List Token} {index : Nat} (h : ReturnsAt 1 tokens index) :
    ∃ closing, tokens = tokens.take index ++ closing :: tokens.drop (index + 1) ∧
      tokens[index]? = some closing ∧ closing.kind = .closing := by
  have hlt := h.lt_length
  refine ⟨tokens[index], ?_, List.getElem?_eq_getElem hlt, ?_⟩
  · rw [← List.drop_eq_getElem_cons hlt, List.take_append_drop]
  · have hzero := h.zero
    rw [List.take_succ_eq_append_getElem hlt, depth_append, h.balanced.zero, depth_cons,
      depth_nil] at hzero
    exact Token.closing_of_weight (by omega)

/-- Counting from a depth above zero finds where it first returns to zero, if it does. -/
theorem close_index_from_cases (start : Nat) (tokens : List Token) :
    (∃ index, closeIndexFrom (start + 1) tokens = some index ∧
      ReturnsAt (start + 1) tokens index) ∨
    closeIndexFrom (start + 1) tokens = none ∧ Stays (start + 1) tokens := by
  induction tokens generalizing start with
  | nil => exact .inr ⟨rfl, fun n => by rw [List.take_nil, depth_nil]; omega⟩
  | cons t rest ih =>
      -- If the token leaves the depth above zero, the search goes on from there.
      have step (next : Nat) (hweight : (start : Int) + 1 + t.weight = (next : Int) + 1)
          (hcount : closeIndexFrom (start + 1) (t :: rest) =
            (closeIndexFrom (next + 1) rest).map (· + 1)) :
          (∃ index, closeIndexFrom (start + 1) (t :: rest) = some index ∧
            ReturnsAt (start + 1) (t :: rest) index) ∨
          closeIndexFrom (start + 1) (t :: rest) = none ∧ Stays (start + 1) (t :: rest) := by
        rcases ih next with ⟨index, hindex, hreturns⟩ | ⟨hnone, hstays⟩
        · rw [← hweight] at hreturns
          exact .inl ⟨index + 1, by rw [hcount, hindex]; rfl, hreturns.cons (by omega)⟩
        · rw [← hweight] at hstays
          exact .inr ⟨by rw [hcount, hnone]; rfl, hstays.cons (by omega)⟩
      by_cases hopen : t.kind = .opening
      · exact step (start + 1) (by rw [Token.weight_opening hopen]; omega)
          (close_index_from_opening hopen _ _)
      · by_cases hclose : t.kind = .closing
        · cases start with
          | zero =>
              have hfound := (close_index_from_closing hclose 0 rest).1
              refine .inl ⟨0, hfound, Nat.zero_lt_succ _, ?_, ?_⟩
              · simp [Token.weight_closing hclose]
              · intro n hn
                rw [Nat.le_zero.mp hn, List.take_zero, depth_nil]
                decide
          | succ start =>
              exact step start (by rw [Token.weight_closing hclose]; omega)
                (close_index_from_closing hclose start rest).2
        · exact step start (by rw [Token.weight_atom hopen hclose, Int.add_zero])
            (close_index_from_atom hopen hclose _ _)

section

variable {opening : Token} {rest : List Token}

/-- The depth of the first tokens of a list that begins with an opening bracket. -/
theorem depth_take_opening (hopening : opening.kind = .opening) (rest : List Token) (n : Nat) :
    depth ((opening :: rest).take (n + 1)) = 1 + depth (rest.take n) := by
  rw [List.take_succ_cons, depth_cons, Token.weight_opening hopening]

/-- The closing bracket stands where the depth returns to zero, and otherwise there is none. -/
theorem close_index_cases (hopening : opening.kind = .opening) (rest : List Token) :
    (∃ index, closeIndex? (opening :: rest) = some (index + 1) ∧ ReturnsAt 1 rest index) ∨
      closeIndex? (opening :: rest) = none ∧ Stays 1 rest := by
  rw [closeIndex?, close_index_from_opening hopening]
  rcases close_index_from_cases 0 rest with ⟨index, hindex, hreturns⟩ | ⟨hnone, hstays⟩
  · exact .inl ⟨index, by rw [hindex]; rfl, hreturns⟩
  · exact .inr ⟨by rw [hnone]; rfl, hstays⟩

/-- A closing bracket that is found stands where the depth returns to zero. -/
theorem close_index_eq_some (hopening : opening.kind = .opening) {index : Nat}
    (h : closeIndex? (opening :: rest) = some index) :
    ∃ i, index = i + 1 ∧ ReturnsAt 1 rest i := by
  rcases close_index_cases hopening rest with ⟨i, hi, hreturns⟩ | ⟨hnone, -⟩
  · exact ⟨i, Option.some.inj (h.symm.trans hi), hreturns⟩
  · rw [hnone] at h
    cases h

/-- The depth never returns to zero after the first token. -/
def NeverReturns (tokens : List Token) : Prop :=
  ∀ n, depth (tokens.take (n + 1)) ≠ 0

/-- A bracket is not closed exactly if the depth never returns to zero. -/
theorem close_index_eq_none (hopening : opening.kind = .opening) :
    closeIndex? (opening :: rest) = none ↔ NeverReturns (opening :: rest) := by
  rcases close_index_cases hopening rest with ⟨index, hindex, hreturns⟩ | ⟨hnone, hstays⟩
  · refine iff_of_false (by simp [hindex]) fun h => h (index + 1) ?_
    rw [depth_take_opening hopening]
    exact hreturns.zero
  · refine iff_of_true hnone fun n => ?_
    rw [depth_take_opening hopening]
    exact Int.ne_of_gt (hstays n)

/-- Then it is not below zero either. -/
theorem NeverReturns.nonneg (h : NeverReturns (opening :: rest))
    (hopening : opening.kind = .opening) (n : Nat) : 0 ≤ depth ((opening :: rest).take n) := by
  rcases close_index_cases hopening rest with ⟨index, hindex, -⟩ | ⟨-, hstays⟩
  · rw [(close_index_eq_none hopening).mpr h] at hindex
    cases hindex
  · cases n with
    | zero => exact Int.le_refl 0
    | succ n =>
        rw [depth_take_opening hopening]
        exact Int.le_of_lt (hstays n)

/-- What follows the closing bracket does not matter. -/
theorem close_index_append (hopening : opening.kind = .opening) {index : Nat}
    (h : closeIndex? (opening :: rest) = some index) (later : List Token) :
    closeIndex? (opening :: (rest ++ later)) = some index := by
  obtain ⟨i, rfl, hreturns⟩ := close_index_eq_some hopening h
  rcases close_index_cases hopening (rest ++ later) with ⟨j, hj, hreturns'⟩ | ⟨-, hstays⟩
  · rw [hj, hreturns'.unique (hreturns.append later)]
  · exact absurd (hreturns.append later).zero (Int.ne_of_gt (hstays (i + 1)))

/-- A bracket is not closed later either, if what follows closes no more than it opens. -/
theorem close_index_append_none (hopening : opening.kind = .opening)
    (h : closeIndex? (opening :: rest) = none) {later : List Token}
    (hlater : ∀ n, 0 ≤ depth (later.take n)) : closeIndex? (opening :: (rest ++ later)) = none := by
  rcases close_index_cases hopening rest with ⟨index, hindex, -⟩ | ⟨-, hstays⟩
  · rw [h] at hindex
    cases hindex
  · rcases close_index_cases hopening (rest ++ later) with ⟨index, -, hreturns⟩ | ⟨hnone, -⟩
    · refine absurd hreturns.zero (Int.ne_of_gt ?_)
      have hfirst := hstays (index + 1)
      have hsecond := hlater (index + 1 - rest.length)
      rw [List.take_append, depth_append]
      omega
    · exact hnone

end

end QuotedLisp
