import QuotedLisp.Proofs.Value.Depth
import QuotedLisp.Proofs.Value.Derivation

/-!
# Brackets that are never closed

A token list can end too early in one way only: a bracket stands after complete items, outside of
every list, and no later token closes it; see `end_of_input_iff_unclosed`. What comes before such a
bracket is read as if nothing followed (`of_tokens_append`), and the tokens inside a list are
balanced, so the reading of them neither ends too early nor meets the end of another list.
-/

namespace QuotedLisp

namespace Value

section

variable {rest later : List Token}

/-- An item that is read before two parts, if it can be read, is read before the first. -/
theorem of_tokens_append_cons (check : Except ParseError Value)
    (h : ∀ item, check = .ok item → ofTokens (rest ++ later) =
      ofTokens rest >>= fun items => (ofTokens later).map (items ++ ·)) :
    (do
      let item ← check
      let items ← ofTokens (rest ++ later)
      Except.ok (item :: items)) =
    (do
      let item ← check
      let items ← ofTokens rest
      Except.ok (item :: items)) >>= fun items => (ofTokens later).map (items ++ ·) := by
  cases check with
  | error e => rfl
  | ok item =>
      rw [h item rfl]
      cases ofTokens rest with
      | error e => rfl
      | ok items => cases ofTokens later <;> rfl

/-- A list of tokens is read as its first part is, and then as the rest is; only a bracket that the
first part leaves open could be closed in the rest. -/
theorem of_tokens_append {tokens : List Token}
    (hlater : ofTokens tokens = .error .unexpectedEndOfInput → ∀ n, 0 ≤ depth (later.take n)) :
    ofTokens (tokens ++ later) =
      ofTokens tokens >>= fun items => (ofTokens later).map (items ++ ·) := by
  fun_induction ofTokens tokens with
  | case1 =>
      show ofTokens later = (ofTokens later).map id
      cases ofTokens later <;> rfl
  | case2 t rest hkind ih | case3 t rest hkind ih =>
      rw [List.cons_append, ofTokens, hkind]
      exact ih hlater
  | case4 t rest hkind ih =>
      rw [List.cons_append, ofTokens, hkind]
      refine of_tokens_append_cons (.ok (.identifier t.text)) fun _ _ => ih fun h => ?_
      exact hlater (by rw [h]; rfl)
  | case5 t rest hkind ih | case6 t rest hkind ih =>
      rw [List.cons_append, ofTokens, hkind]
      refine of_tokens_append_cons _ fun item hitem => ih fun h => hlater ?_
      rw [hitem, h]
      rfl
  | case7 t rest hkind hnone =>
      rw [List.cons_append, ofTokens, hkind]
      simp only [close_index_append_none hkind hnone (hlater rfl)]
      rfl
  | case8 t rest hkind index hindex _ ihlater =>
      -- The list ends within the first part, so its items are read from the same tokens.
      obtain ⟨i, rfl, hreturns⟩ := close_index_eq_some hkind hindex
      have hlength := hreturns.lt_length
      rw [List.cons_append, ofTokens, hkind]
      simp only [close_index_append hkind hindex, List.getElem?_cons_succ, Nat.add_sub_cancel]
      rw [List.getElem?_append_left hlength, List.take_append_of_le_length (Nat.le_of_lt hlength),
        List.drop_append_of_le_length hlength]
      simp only [List.getElem?_cons_succ, Nat.add_sub_cancel] at hlater
      cases hbracket : bracketOf t rest[i]? with
      | error e => rfl
      | ok b =>
          cases hinside : ofTokens (rest.take i) with
          | error e => rfl
          | ok inside =>
              refine of_tokens_append_cons (.ok (.list b inside)) fun _ _ => ihlater fun h => ?_
              rw [hbracket, hinside, h] at hlater
              exact hlater rfl
  | case9 t rest hkind =>
      rw [List.cons_append, ofTokens, hkind]
      rfl

end

/-- A bracket that stands after complete items and is never closed. -/
def Unclosed (tokens : List Token) : Prop :=
  ∃ before items opening after, tokens = before ++ opening :: after ∧ Spells before items ∧
    opening.kind = .opening ∧ NeverReturns (opening :: after)

/-- Complete items in front change nothing about it. -/
theorem Unclosed.after {first rest : List Token} {items : List Value} (h : Unclosed rest)
    (hfirst : Spells first items) : Unclosed (first ++ rest) := by
  obtain ⟨before, others, opening, after, rfl, hbefore, hopening, hnever⟩ := h
  exact ⟨first ++ before, _, opening, after, by rw [List.append_assoc], hfirst.append hbefore,
    hopening, hnever⟩

/-- Between a bracket and the one that closes it, every bracket is closed. -/
theorem not_unclosed_of_balanced {tokens : List Token} (h : Balanced tokens) :
    ¬ Unclosed tokens := by
  rintro ⟨before, items, opening, after, rfl, hbefore, -, hnever⟩
  have hrest := hnever after.length
  have hzero := h.zero
  rw [List.take_of_length_le (Nat.le_refl (after.length + 1))] at hrest
  rw [depth_append, hbefore.depth, Int.zero_add] at hzero
  exact hrest hzero

/-- Nor does a bracket close what was not opened there. -/
theorem no_stray_of_balanced {before after : List Token} {closing : Token} {items : List Value}
    (h : Balanced (before ++ closing :: after)) (hbefore : Spells before items) :
    closing.kind ≠ .closing := by
  intro hclosing
  have hnonneg := h.nonneg (before.length + 1)
  rw [List.take_append, Nat.add_sub_cancel_left, List.take_of_length_le (Nat.le_succ _),
    List.take_succ_cons, List.take_zero, depth_append, hbefore.depth, depth_cons,
    Token.weight_closing hclosing] at hnonneg
  exact absurd hnonneg (by decide)

/-- A number token is not refused for what does not follow it. -/
theorem of_number_token_ne_end_of_input (t : Token) :
    ofNumberToken t ≠ .error .unexpectedEndOfInput := by
  unfold ofNumberToken
  split
  · split <;> nofun
  · nofun

/-- Nor is a string token. -/
theorem of_string_token_ne_end_of_input (t : Token) :
    ofStringToken t ≠ .error .unexpectedEndOfInput := by
  unfold ofStringToken
  split <;> nofun

/-- If the tokens end too early, there is a bracket that is never closed, outside of every list. -/
theorem unclosed_of_end_of_input {tokens : List Token}
    (h : ofTokens tokens = .error .unexpectedEndOfInput) : Unclosed tokens := by
  fun_induction ofTokens tokens with
  | case1 | case9 => cases h
  | case2 t rest hkind ih | case3 t rest hkind ih =>
      exact (ih h).after (.separator t [] [] (by simp [hkind, TokenClass.isSeparator]) .nil)
  | case4 t rest hkind ih =>
      exact (ih (except_bind_ok_eq_error.mp h)).after (.identifier t [] [] hkind .nil)
  | case5 t rest hkind ih =>
      rcases except_bind_eq_error.mp h with hitem | ⟨item, hitem, h⟩
      · exact absurd hitem (of_number_token_ne_end_of_input t)
      · obtain ⟨x, -, hread, hfinite⟩ := of_number_token_eq_ok.mp hitem
        exact (ih (except_bind_ok_eq_error.mp h)).after
          (.number t x [] [] hkind hread hfinite .nil)
  | case6 t rest hkind ih =>
      rcases except_bind_eq_error.mp h with hitem | ⟨item, hitem, h⟩
      · exact absurd hitem (of_string_token_ne_end_of_input t)
      · obtain ⟨text, -, hread⟩ := of_string_token_eq_ok.mp hitem
        exact (ih (except_bind_ok_eq_error.mp h)).after (.string t text [] [] hkind hread .nil)
  | case7 t rest hkind hnone =>
      exact ⟨[], [], t, rest, rfl, .nil, hkind, (close_index_eq_none hkind).mp hnone⟩
  | case8 t rest hkind index hindex ihinside ihlater =>
      obtain ⟨i, rfl, hreturns⟩ := close_index_eq_some hkind hindex
      obtain ⟨closing, hsplit, hget, hclosing⟩ := hreturns.split
      rw [List.getElem?_cons_succ, hget] at h
      rcases except_bind_eq_error.mp h with h | ⟨b, hbracket, h⟩
      · rcases bracketOf_error h with ⟨-, heq⟩ | heq <;> cases heq
      · rcases except_bind_eq_error.mp h with h | ⟨children, hchildren, h⟩
        · exact absurd (ihinside h) (not_unclosed_of_balanced hreturns.balanced)
        · obtain ⟨hb, hb'⟩ := bracket_of_eq_ok.mp hbracket
          have hlist := Spells.list t closing b _ [] children [] hkind hb hclosing hb'
            (spells_of_tokens hchildren) .nil
          have hunclosed := (ihlater (except_bind_ok_eq_error.mp h)).after hlist
          rw [hsplit]
          simpa using hunclosed

/-- Such a bracket is what the reading comes to. -/
theorem Unclosed.end_of_input {tokens : List Token} (h : Unclosed tokens) :
    ofTokens tokens = .error .unexpectedEndOfInput := by
  obtain ⟨before, items, opening, after, rfl, hbefore, hopening, hnever⟩ := h
  have hrest : ofTokens (opening :: after) = .error .unexpectedEndOfInput := by
    rw [ofTokens, hopening]
    simp only [(close_index_eq_none hopening).mpr hnever]
  rw [of_tokens_append (by simp [hbefore.of_tokens]), hbefore.of_tokens, hrest]
  rfl

/-- A token list ends too early exactly if a bracket is never closed that stands after complete
items. If what stands before a bracket that is never closed cannot be read, this is the reason that
is given. What stands between a bracket and the one that closes it does not end too early, and the
reading of it does not come to a bracket that closes another list. -/
theorem end_of_input_iff_unclosed (tokens : List Token) (b : Bracket) :
    (parseTokens tokens b = .error .unexpectedEndOfInput ↔
      ∃ before opening after, tokens = before ++ opening :: after ∧ opening.kind = .opening ∧
        (∃ tree, parseTokens before b = .ok tree) ∧ NeverReturns (opening :: after)) ∧
    (∀ before opening after e, tokens = before ++ opening :: after → opening.kind = .opening →
      NeverReturns (opening :: after) → parseTokens before b = .error e →
      parseTokens tokens b = .error e) ∧
    ∀ opening rest index, opening.kind = .opening → closeIndex? (opening :: rest) = some index →
      parseTokens (rest.take (index - 1)) b ≠ .error .unexpectedEndOfInput ∧
      ∀ before closing after, rest.take (index - 1) = before ++ closing :: after →
        closing.kind = .closing → ∀ tree, parseTokens before b ≠ .ok tree := by
  refine ⟨⟨fun h => ?_, ?_⟩, ?_, fun opening rest index hopening hindex => ?_⟩
  · obtain ⟨before, items, opening, after, htokens, hbefore, hopening, hnever⟩ :=
      unclosed_of_end_of_input (except_map_eq_error.mp h)
    have hparse : parseTokens before b = .ok (.list b items) :=
      except_map_eq_ok.mpr ⟨items, hbefore.of_tokens, rfl⟩
    exact ⟨before, opening, after, htokens, hopening, ⟨_, hparse⟩, hnever⟩
  · rintro ⟨before, opening, after, htokens, hopening, ⟨tree, htree⟩, hnever⟩
    obtain ⟨items, hitems, -⟩ := except_map_eq_ok.mp htree
    have hunclosed : Unclosed tokens :=
      ⟨before, items, opening, after, htokens, spells_of_tokens hitems, hopening, hnever⟩
    exact except_map_eq_error.mpr hunclosed.end_of_input
  · intro before opening after e htokens hopening hnever he
    have hitems := except_map_eq_error.mp he
    rw [htokens, parseTokens, of_tokens_append fun _ => hnever.nonneg hopening, hitems]
    rfl
  · obtain ⟨i, rfl, hreturns⟩ := close_index_eq_some hopening hindex
    rw [Nat.add_sub_cancel]
    have hbalanced := hreturns.balanced
    constructor
    · intro h
      exact not_unclosed_of_balanced hbalanced
        (unclosed_of_end_of_input (except_map_eq_error.mp h))
    · intro before closing after hsplit hclosing tree htree
      obtain ⟨items, hitems, -⟩ := except_map_eq_ok.mp htree
      rw [hsplit] at hbalanced
      exact no_stray_of_balanced hbalanced (spells_of_tokens hitems) hclosing

/-- A bracket, a list of the other kind in it, and a second bracket. -/
def opened : List Token :=
  [Bracket.round.openToken, Bracket.curly.openToken, Bracket.curly.closeToken,
    Bracket.round.openToken]

/-- A list in which a bracket of the other kind is closed by one of its own. -/
def crossed : List Token :=
  [Bracket.curly.openToken, Bracket.round.closeToken, Bracket.round.closeToken]

/-- After a name, neither of the two brackets is closed, and it is the first that is found; a
bracket that closes nothing and stands before them is found instead. The items of a list may be no
items, but they do not end too early. -/
theorem end_of_input_iff_unclosed_nested :
    NeverReturns opened ∧
      parseTokens (⟨.identifier, "a"⟩ :: opened) .round = .error .unexpectedEndOfInput ∧
      parseTokens (Bracket.curly.closeToken :: opened) .round =
        .error (.unexpectedToken Bracket.curly.closeToken) ∧
      closeIndex? (Bracket.round.openToken :: crossed) = some 3 ∧
      parseTokens (crossed.take 2) .round =
        .error (.unexpectedToken Bracket.round.closeToken) ∧
      parseTokens (crossed.take 2) .round ≠ .error .unexpectedEndOfInput := by
  have hnever : NeverReturns opened := (close_index_eq_none rfl).mp rfl
  have hspells : Spells [⟨.identifier, "a"⟩] [.identifier "a"] := .identifier _ [] [] rfl .nil
  have hname : parseTokens [⟨.identifier, "a"⟩] .round = .ok (.list .round [.identifier "a"]) := by
    rw [parseTokens, hspells.of_tokens]
    rfl
  have hstray : parseTokens [Bracket.curly.closeToken] .round =
      .error (.unexpectedToken Bracket.curly.closeToken) := by decide +kernel
  have hclosed : closeIndex? (Bracket.round.openToken :: crossed) = some 3 := rfl
  obtain ⟨hunclosed, -, hinside⟩ :=
    end_of_input_iff_unclosed (⟨.identifier, "a"⟩ :: opened) .round
  obtain ⟨-, hearlier, -⟩ := end_of_input_iff_unclosed (Bracket.curly.closeToken :: opened) .round
  refine ⟨hnever, hunclosed.mpr ⟨[⟨.identifier, "a"⟩], _, _, rfl, rfl, ⟨_, hname⟩, hnever⟩,
    hearlier [Bracket.curly.closeToken] _ _ _ rfl rfl hnever hstray, hclosed, ?_,
    (hinside _ crossed 3 rfl hclosed).1⟩
  decide +kernel

end Value

end QuotedLisp
