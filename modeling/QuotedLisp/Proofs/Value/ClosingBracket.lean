import Mathlib.Data.List.Basic
import Mathlib.Order.Bounds.Basic
import QuotedLisp.Proofs.Value.Derivation

/-!
# The search for a closing bracket

The bracket that closes the first one is found at the least index at which as many brackets have
been closed as opened, whatever stands in the list; see `close_index_shortest_span`. On the way the
search counts the brackets that are open (`Search.run_cases`), so it never comes to one that has
nothing to close: it finds the bracket or comes to the end of the list. What is read as the inside
of a list is therefore a part of the tokens, and shorter than they are.
-/

namespace QuotedLisp

/-- How many brackets are opened. -/
def openingCount (tokens : List Token) : Nat :=
  tokens.countP (·.kind = .opening)

/-- How many brackets are closed. -/
def closingCount (tokens : List Token) : Nat :=
  tokens.countP (·.kind = .closing)

/-- The depth tells the two counts apart. -/
theorem depth_eq_counts (tokens : List Token) :
    depth tokens = (openingCount tokens : Int) - closingCount tokens := by
  induction tokens with
  | nil => rfl
  | cons t rest ih =>
      rw [depth_cons, ih, openingCount, openingCount, closingCount, closingCount,
        List.countP_cons, List.countP_cons, Token.weight]
      cases t.kind <;> simp <;> omega

/-- Up to this index, which is one of the list, as many brackets are closed as opened. -/
def BalancedAt (tokens : List Token) (index : Nat) : Prop :=
  index < tokens.length ∧
    openingCount (tokens.take (index + 1)) = closingCount (tokens.take (index + 1))

/-- Where a search for a closing bracket stands: it counts the brackets that are open, or it has
found the one that closes the last of them, or one that has nothing to close. -/
inductive Search where
  | counting (depth : Nat)
  | found
  | underflow
deriving DecidableEq, Repr

namespace Search

/-- What a token does to a search. -/
def next : Search → Token → Search
  | counting depth, t =>
    match t.kind with
    | .opening => counting (depth + 1)
    | .closing =>
      match depth with
      | 0 => underflow
      | 1 => found
      | deeper + 2 => counting (deeper + 1)
    | _ => counting depth
  | found, _ => found
  | underflow, _ => underflow

/-- Where a search from a depth stands after some tokens. -/
def run (start : Nat) (tokens : List Token) : Search :=
  tokens.foldl next (counting start)

section

variable {start : Nat} {t : Token} {rest : List Token}

/-- A search that goes on after a token is a search from another depth. -/
theorem run_cons_counting {depth : Nat} (h : (counting start).next t = counting depth) :
    run start (t :: rest) = run depth rest := by
  rw [run, List.foldl_cons, h, run]

/-- A search that has found the bracket does not go on. -/
theorem run_cons_found (h : (counting start).next t = found) : run start (t :: rest) = found := by
  rw [run, List.foldl_cons, h]
  exact List.foldl_fixed' (fun _ => rfl) rest

/-- Nor does one that comes to a bracket that has nothing to close. -/
theorem run_cons_underflow (h : (counting start).next t = underflow) :
    run start (t :: rest) = underflow := by
  rw [run, List.foldl_cons, h]
  exact List.foldl_fixed' (fun _ => rfl) rest

end

/-- From a positive depth, the token that takes it to zero is the one that is searched for, and any
other changes it by its weight. -/
theorem next_cases {depth : Nat} (hdepth : 0 < depth) (t : Token) :
    ((counting depth).next t = found ∧ (depth : Int) + t.weight = 0) ∨
      ∃ later, (counting depth).next t = counting later ∧ 0 < later ∧
        (later : Int) = depth + t.weight := by
  obtain ⟨kind, text⟩ := t
  cases kind with
  | opening => exact .inr ⟨depth + 1, rfl, Nat.succ_pos depth, rfl⟩
  | closing =>
      match depth, hdepth with
      | 1, _ => exact .inl ⟨rfl, rfl⟩
      | deeper + 2, _ =>
          refine .inr ⟨deeper + 1, rfl, Nat.succ_pos deeper, ?_⟩
          rw [Token.weight_closing rfl]
          omega
  | _ => exact .inr ⟨depth, rfl, hdepth, (Int.add_zero _).symm⟩

/-- From a positive depth, a search counts the brackets that are open until none is. -/
theorem run_cases {start : Nat} (hstart : 0 < start) (tokens : List Token) :
    run start tokens = found ∨
      ∃ later, run start tokens = counting later ∧ 0 < later ∧
        (later : Int) = start + depth tokens := by
  induction tokens generalizing start with
  | nil => exact .inr ⟨start, rfl, hstart, by rw [depth_nil, Int.add_zero]⟩
  | cons t rest ih =>
      rcases next_cases hstart t with ⟨hfound, -⟩ | ⟨later, hlater, hpos, hweight⟩
      · exact .inl (run_cons_found hfound)
      · rw [run_cons_counting hlater, depth_cons, ← Int.add_assoc, ← hweight]
        exact ih hpos

/-- One token of the function is one token of the search. -/
theorem close_index_from_cons (start : Nat) (t : Token) (rest : List Token) :
    closeIndexFrom start (t :: rest) =
      match (counting start).next t with
      | counting depth => (closeIndexFrom depth rest).map (· + 1)
      | found => some 0
      | underflow => none := by
  obtain ⟨kind, text⟩ := t
  cases kind with
  | closing =>
      match start with
      | 0 | 1 | deeper + 2 => rfl
  | _ => rfl

/-- The function gives the index of the token at which the search finds the bracket, and nothing if
the search does not find it in the whole list. -/
theorem close_index_from_run (start : Nat) (tokens : List Token) :
    (∃ index, closeIndexFrom start tokens = some index ∧
      (∃ depth, run start (tokens.take index) = counting depth) ∧
      run start (tokens.take (index + 1)) = found) ∨
    closeIndexFrom start tokens = none ∧ run start tokens ≠ found := by
  induction tokens generalizing start with
  | nil => exact .inr ⟨rfl, nofun⟩
  | cons t rest ih =>
      rw [close_index_from_cons]
      cases hnext : (counting start).next t with
      | counting depth =>
          rcases ih depth with ⟨index, hindex, ⟨before, hbefore⟩, hfound⟩ | ⟨hindex, hfound⟩
          · refine .inl ⟨index + 1, by simp only [hindex, Option.map_some], ⟨before, ?_⟩, ?_⟩
            · rw [List.take_succ_cons, run_cons_counting hnext, hbefore]
            · rw [List.take_succ_cons, run_cons_counting hnext, hfound]
          · refine .inr ⟨by simp only [hindex, Option.map_none], ?_⟩
            rw [run_cons_counting hnext]
            exact hfound
      | found => exact .inl ⟨0, rfl, ⟨start, rfl⟩, run_cons_found hnext⟩
      | underflow => exact .inr ⟨rfl, by rw [run_cons_underflow hnext]; nofun⟩

end Search

section

variable {opening : Token} {rest : List Token}

/-- The counts are equal where the tokens after the opening bracket have closed it. -/
theorem balanced_at_iff (hopening : opening.kind = .opening) {i : Nat} :
    BalancedAt (opening :: rest) i ↔ i ≤ rest.length ∧ 1 + depth (rest.take i) = 0 := by
  rw [BalancedAt, List.length_cons, Nat.lt_succ_iff, ← depth_take_opening hopening,
    depth_eq_counts]
  omega

/-- Where the depth returns to zero, the counts are equal for the first time. -/
theorem ReturnsAt.isLeast (hopening : opening.kind = .opening) {i : Nat}
    (h : ReturnsAt 1 rest i) : IsLeast {j | BalancedAt (opening :: rest) j} (i + 1) := by
  constructor
  · exact (balanced_at_iff hopening).mpr ⟨h.lt_length, h.zero⟩
  · intro j hj
    by_contra hlt
    have hpos := h.before j (by omega)
    exact absurd ((balanced_at_iff hopening).mp hj).2 (Int.ne_of_gt hpos)

/-- Where it never does, they are never equal. -/
theorem Stays.not_balancedAt (hopening : opening.kind = .opening) (h : Stays 1 rest) (i : Nat) :
    ¬ BalancedAt (opening :: rest) i := fun hi =>
  absurd ((balanced_at_iff hopening).mp hi).2 (Int.ne_of_gt (h i))

/-- The index that is found is the least one at which the counts are equal. -/
theorem close_index_eq_some_iff (hopening : opening.kind = .opening) {index : Nat} :
    closeIndex? (opening :: rest) = some index ↔
      IsLeast {i | BalancedAt (opening :: rest) i} index := by
  rcases close_index_cases hopening rest with ⟨i, hi, hreturns⟩ | ⟨hnone, hstays⟩
  · rw [hi, Option.some.injEq]
    have hleast := hreturns.isLeast hopening
    exact ⟨fun h => h ▸ hleast, hleast.unique⟩
  · rw [hnone]
    exact iff_of_false nofun fun h => hstays.not_balancedAt hopening index h.1

/-- No index is found exactly if the tokens up to any place open more brackets than they close. -/
theorem close_index_eq_none_iff (hopening : opening.kind = .opening) :
    closeIndex? (opening :: rest) = none ↔
      ∀ front, front <+: opening :: rest → front ≠ [] →
        closingCount front < openingCount front := by
  rcases close_index_cases hopening rest with ⟨i, hi, hreturns⟩ | ⟨hnone, hstays⟩
  · rw [hi]
    refine iff_of_false nofun fun h => ?_
    have hfront := List.take_prefix (i + 2) (opening :: rest)
    have hlt := h _ hfront (by simp)
    exact absurd (hreturns.isLeast hopening).1.2 (Nat.ne_of_gt hlt)
  · refine iff_of_true hnone fun front hfront hne => ?_
    obtain ⟨n, hn⟩ := Nat.exists_eq_succ_of_ne_zero (List.length_eq_zero_iff.not.mpr hne)
    have hpos := hstays n
    rw [← depth_take_opening hopening, ← Nat.succ_eq_add_one, ← hn,
      ← List.prefix_iff_eq_take.mp hfront, depth_eq_counts] at hpos
    omega

/-- Balanced tokens open as many brackets as they close, and first open what they close. -/
theorem Balanced.counts {tokens : List Token} (h : Balanced tokens) :
    openingCount tokens = closingCount tokens ∧
      ∀ front, front <+: tokens → closingCount front ≤ openingCount front := by
  constructor
  · have hzero := h.zero
    rw [depth_eq_counts] at hzero
    omega
  · intro front hfront
    have hnonneg := h.nonneg front.length
    rw [← List.prefix_iff_eq_take.mp hfront, depth_eq_counts] at hnonneg
    omega

/-- The first token of a list that begins with an opening bracket takes a search to depth one. -/
theorem Search.run_opening (hopening : opening.kind = .opening) (rest : List Token) :
    Search.run 0 (opening :: rest) = Search.run 1 rest :=
  run_cons_counting (by simp only [next, hopening])

/-- From there the search never comes to a bracket that has nothing to close, and what it counts is
how many more brackets have been opened than closed. -/
theorem Search.run_take (hopening : opening.kind = .opening) (n : Nat) :
    Search.run 0 ((opening :: rest).take n) ≠ .underflow ∧
      ∀ depth, Search.run 0 ((opening :: rest).take n) = .counting depth →
        closingCount ((opening :: rest).take n) + depth =
          openingCount ((opening :: rest).take n) := by
  cases n with
  | zero =>
      refine ⟨nofun, fun depth h => ?_⟩
      cases h
      rfl
  | succ n =>
      have hdepth := depth_take_opening hopening rest n
      rw [depth_eq_counts] at hdepth
      rw [List.take_succ_cons] at hdepth ⊢
      rw [run_opening hopening]
      rcases run_cases Nat.one_pos (rest.take n) with hfound | ⟨later, hlater, -, hcount⟩
      · rw [hfound]
        exact ⟨nofun, nofun⟩
      · rw [hlater]
        refine ⟨nofun, fun depth h => ?_⟩
        cases h
        omega

/-- The search goes on until it comes to the bracket that is found. -/
theorem Search.run_found {tokens : List Token} {index : Nat}
    (h : closeIndex? tokens = some index) :
    (∃ depth, run 0 (tokens.take index) = counting depth) ∧
      run 0 (tokens.take (index + 1)) = found := by
  rcases close_index_from_run 0 tokens with ⟨i, hi, hrun⟩ | ⟨hnone, -⟩
  · obtain rfl := Option.some.inj (hi.symm.trans h)
    exact hrun
  · cases hnone.symm.trans h

/-- If none is found, it goes on to the end. -/
theorem Search.run_not_found (hopening : opening.kind = .opening)
    (h : closeIndex? (opening :: rest) = none) :
    ∃ depth, run 0 (opening :: rest) = counting depth := by
  rcases close_index_from_run 0 (opening :: rest) with ⟨i, hi, -⟩ | ⟨-, hfound⟩
  · cases hi.symm.trans h
  · rw [run_opening hopening] at hfound ⊢
    rcases run_cases Nat.one_pos rest with hrun | ⟨depth, hrun, -⟩
    · exact absurd hrun hfound
    · exact ⟨depth, hrun⟩

end

namespace Value

/-- What is read from a list at an opening bracket that is closed: the tokens between the two
brackets, which are a part of the list and shorter than it, and then those after the second. -/
theorem of_tokens_opening {whole rest : List Token} {opening : Token} {start index : Nat}
    (hstart : whole.drop start = opening :: rest) (hopening : opening.kind = .opening)
    (hindex : closeIndex? (opening :: rest) = some index) :
    start + 1 ≤ start + index ∧ start + index < whole.length ∧
      (whole.extract (start + 1) (start + index)).length < whole.length ∧
      ofTokens (whole.drop start) = (do
        let bracket ← bracketOf opening whole[start + index]?
        let inside ← ofTokens (whole.extract (start + 1) (start + index))
        let items ← ofTokens (whole.drop (start + index + 1))
        .ok (.list bracket inside :: items)) := by
  obtain ⟨i, rfl, hreturns⟩ := close_index_eq_some hopening hindex
  have hlength : whole.length - start = rest.length + 1 := by
    rw [← List.length_drop, hstart, List.length_cons]
  have hlt := hreturns.lt_length
  have hrest : whole.drop (start + 1) = rest := by
    rw [← List.drop_drop, hstart, List.drop_one, List.tail_cons]
  have hinside : whole.extract (start + 1) (start + (i + 1)) = rest.take i := by
    rw [List.extract_eq_take_drop, hrest]
    congr 1
    omega
  refine ⟨by omega, by omega, ?_, ?_⟩
  · rw [hinside, List.length_take]
    omega
  · rw [hinside, ← List.getElem?_drop, Nat.add_assoc, ← List.drop_drop, hstart, ofTokens, hopening]
    simp only [hindex]
    rfl

end Value

/-- In a list that begins with an opening bracket, the bracket that closes it is found at an index
exactly if this is the least one at which the counts of both are equal. It is a closing bracket,
the tokens between the two are balanced, and the search goes on until it comes to it. None is found
exactly if the tokens up to any place open more brackets than they close, and the search has then
come to the end of the list. What it counts are the brackets that are open, and it never comes to
one that has nothing to close. So what is read as the inside of a list lies in the tokens and is
shorter than they are. -/
theorem close_index_shortest_span (tokens : List Token) {opening : Token}
    (hhead : tokens.head? = some opening) (hopening : opening.kind = .opening) :
    (∀ index, closeIndex? tokens = some index ↔ IsLeast {i | BalancedAt tokens i} index) ∧
    (∀ index, closeIndex? tokens = some index →
      1 ≤ index ∧ (∃ closing, tokens[index]? = some closing ∧ closing.kind = .closing) ∧
      openingCount (tokens.extract 1 index) = closingCount (tokens.extract 1 index) ∧
      (∀ front, front <+: tokens.extract 1 index → closingCount front ≤ openingCount front) ∧
      (∃ depth, Search.run 0 (tokens.take index) = .counting depth) ∧
      Search.run 0 (tokens.take (index + 1)) = .found) ∧
    (closeIndex? tokens = none ↔
      ∀ front, front <+: tokens → front ≠ [] → closingCount front < openingCount front) ∧
    (closeIndex? tokens = none → ∃ depth, Search.run 0 tokens = .counting depth) ∧
    (∀ n, Search.run 0 (tokens.take n) ≠ .underflow ∧
      ∀ depth, Search.run 0 (tokens.take n) = .counting depth →
        closingCount (tokens.take n) + depth = openingCount (tokens.take n)) ∧
    ∀ (whole : List Token) start index, whole.drop start = tokens →
      closeIndex? tokens = some index →
      start + 1 ≤ start + index ∧ start + index < whole.length ∧
      (whole.extract (start + 1) (start + index)).length < whole.length ∧
      Value.ofTokens (whole.drop start) = (do
        let bracket ← Value.bracketOf opening whole[start + index]?
        let inside ← Value.ofTokens (whole.extract (start + 1) (start + index))
        let items ← Value.ofTokens (whole.drop (start + index + 1))
        .ok (.list bracket inside :: items)) := by
  obtain ⟨rest, rfl⟩ := List.head?_eq_some_iff.mp hhead
  refine ⟨fun _ => close_index_eq_some_iff hopening, fun index hindex => ?_,
    close_index_eq_none_iff hopening, fun hnone => ?_, Search.run_take hopening,
    fun _ _ _ hstart => Value.of_tokens_opening hstart hopening⟩
  · obtain ⟨i, rfl, hreturns⟩ := close_index_eq_some hopening hindex
    obtain ⟨closing, -, hget, hclosing⟩ := hreturns.split
    have hinside : (opening :: rest).extract 1 (i + 1) = rest.take i := by
      rw [List.extract_eq_take_drop, List.drop_one, List.tail_cons, Nat.add_sub_cancel]
    rw [hinside]
    obtain ⟨hcounts, hfronts⟩ := hreturns.balanced.counts
    exact ⟨Nat.succ_pos i, ⟨closing, hget, hclosing⟩, hcounts, hfronts, Search.run_found hindex⟩
  · exact Search.run_not_found hopening hnone

/-- A name, and a list in which a bracket of the other kind is closed by one of its own, before
another name. -/
def staggered : List Token :=
  [⟨.identifier, "a"⟩, Bracket.round.openToken, Bracket.curly.openToken, ⟨.number, "1"⟩,
    Bracket.round.closeToken, Bracket.curly.closeToken, ⟨.identifier, "b"⟩]

/-- The bracket after the name is closed by the second bracket that closes one, for the first is
counted against the bracket inside. Without the second bracket, it is not closed. -/
theorem close_index_shortest_span_staggered :
    (staggered.drop 1).head? = some Bracket.round.openToken ∧
      Bracket.round.openToken.kind = .opening ∧
      closeIndex? (staggered.drop 1) = some 4 ∧
      IsLeast {i | BalancedAt (staggered.drop 1) i} 4 ∧
      1 + 4 < staggered.length ∧ (staggered.extract 2 5).length < staggered.length ∧
      closeIndex? ((staggered.take 5).drop 1) = none ∧
      (∀ front, front <+: (staggered.take 5).drop 1 → front ≠ [] →
        closingCount front < openingCount front) ∧
      ∃ depth, Search.run 0 ((staggered.take 5).drop 1) = .counting depth := by
  have hclosed : closeIndex? (staggered.drop 1) = some 4 := rfl
  have hopen : closeIndex? ((staggered.take 5).drop 1) = none := rfl
  obtain ⟨hleast, -, -, -, -, hread⟩ := close_index_shortest_span (staggered.drop 1) rfl rfl
  obtain ⟨-, -, hnever, hend, -⟩ := close_index_shortest_span ((staggered.take 5).drop 1) rfl rfl
  obtain ⟨-, hlength, hshorter, -⟩ := hread staggered 1 4 rfl hclosed
  exact ⟨rfl, rfl, hclosed, (hleast 4).mp hclosed, hlength, hshorter, hopen, hnever.mp hopen,
    hend hopen⟩

end QuotedLisp
