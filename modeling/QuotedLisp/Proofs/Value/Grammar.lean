import QuotedLisp.Proofs.Results
import QuotedLisp.Proofs.Token.Tokens
import QuotedLisp.Proofs.Value.Depth

/-!
# The grammar of values

`Spells tokens items` says that a token list is a sequence of items with the given values: atoms,
and lists between two brackets of one kind, with white space and comments anywhere. `ofTokens`
reads exactly the lists that the grammar admits, `of_tokens_eq_ok`, although it finds the end of a
list by counting brackets of either kind: the tokens of complete items leave the count as it was
(`Spells.close_index`), and a span that the count closes ends in a closing bracket
(`ReturnsAt.split`).
-/

namespace QuotedLisp

namespace Value

/-- `Spells tokens items` says that the tokens are a sequence of items with these values. -/
inductive Spells : List Token → List Value → Prop where
  | nil : Spells [] []
  | separator (t rest items) :
      t.kind.isSeparator = true → Spells rest items → Spells (t :: rest) items
  | identifier (t rest items) :
      t.kind = .identifier → Spells rest items → Spells (t :: rest) (.identifier t.text :: items)
  | number (t x rest items) :
      t.kind = .number → Binary64.ofText? t.text.toList = some x → x.isFinite = true →
      Spells rest items → Spells (t :: rest) (.number x :: items)
  | string (t text rest items) :
      t.kind = .string → Text.Quoted.decode t.text.toList = .ok text →
      Spells rest items → Spells (t :: rest) (.string (String.ofList text) :: items)
  | list (opening closing b inside rest children items) :
      opening.kind = .opening → opening.bracket? = some b →
      closing.kind = .closing → closing.bracket? = some b →
      Spells inside children → Spells rest items →
      Spells (opening :: (inside ++ closing :: rest)) (.list b children :: items)

/-- Two sequences of items make one. -/
theorem Spells.append {first second : List Token} {items others : List Value}
    (hfirst : Spells first items) (hsecond : Spells second others) :
    Spells (first ++ second) (items ++ others) := by
  induction hfirst with
  | nil => exact hsecond
  | separator t rest items hkind _ ih => exact .separator t _ _ hkind ih
  | identifier t rest items hkind _ ih => exact .identifier t _ _ hkind ih
  | number t x rest items hkind hread hfinite _ ih =>
      exact .number t x _ _ hkind hread hfinite ih
  | string t text rest items hkind hread _ ih => exact .string t text _ _ hkind hread ih
  | list opening closing b inside rest children items hopen hb hclose hb' hinside _ _ ih =>
      rw [List.cons_append, List.append_assoc, List.cons_append]
      exact .list opening closing b inside _ children _ hopen hb hclose hb' hinside ih

end Value

/-- Complete items leave the depth as it was. -/
theorem Value.Spells.close_index {tokens : List Token} {items : List Value}
    (h : Spells tokens items) (depth : Nat) (rest : List Token) :
    closeIndexFrom (depth + 1) (tokens ++ rest) =
      (closeIndexFrom (depth + 1) rest).map (· + tokens.length) := by
  induction h generalizing depth rest with
  | nil => simp
  | separator t tokens items hkind _ ih =>
      have hopen : t.kind ≠ .opening := fun heq => by simp [heq, TokenClass.isSeparator] at hkind
      have hclose : t.kind ≠ .closing := fun heq => by simp [heq, TokenClass.isSeparator] at hkind
      rw [List.cons_append, close_index_from_atom hopen hclose, ih]
      simp [Function.comp_def, Nat.add_assoc]
  | identifier t tokens items hkind _ ih | number t _ tokens items hkind _ _ _ ih
  | string t _ tokens items hkind _ _ ih =>
      rw [List.cons_append, close_index_from_atom (by simp [hkind]) (by simp [hkind]), ih]
      simp [Function.comp_def, Nat.add_assoc]
  | list opening closing b inside tokens children items hopen _ hclose _ _ _ ihinside ih =>
      rw [List.cons_append, close_index_from_opening hopen, List.append_assoc, ihinside,
        List.cons_append, (close_index_from_closing hclose depth _).2, ih]
      simp only [Option.map_map, Function.comp_def, List.length_cons, List.length_append]
      congr 1
      funext n
      omega

/-- Complete items have depth zero. -/
theorem Value.Spells.depth {tokens : List Token} {items : List Value} (h : Spells tokens items) :
    depth tokens = 0 := by
  induction h with
  | nil => rfl
  | separator t rest items hkind _ ih =>
      obtain ⟨kind, text⟩ := t
      cases kind <;> simp_all [TokenClass.isSeparator, Token.weight]
  | identifier t rest items hkind _ ih | number t _ rest items hkind _ _ _ ih
  | string t _ rest items hkind _ _ ih =>
      simp [Token.weight, hkind, ih]
  | list opening closing b inside rest children items hopen _ hclose _ _ _ ihinside ih =>
      simp [Token.weight_opening hopen, Token.weight_closing hclose, ihinside, ih]

namespace Value

/-- The brackets of a list are of one kind, or there is no list. -/
theorem bracket_of_eq_ok {opening closing : Token} {b : Bracket} :
    bracketOf opening (some closing) = .ok b ↔
      opening.bracket? = some b ∧ closing.bracket? = some b := by
  cases hopening : opening.bracket? with
  | none => simp [bracketOf, hopening]
  | some b' =>
      simp only [bracketOf, hopening, Option.some.injEq]
      split
      · rename_i hclosing
        simp only [Except.ok.injEq]
        exact ⟨fun h => ⟨h, h ▸ hclosing⟩, fun h => h.1⟩
      · rename_i hclosing
        simp only [reduceCtorEq, false_iff, not_and]
        rintro rfl
        exact hclosing

/-- The brackets of a list fail if the first has no known glyph, or if they are not of one kind. -/
theorem bracketOf_error {opening closing : Token} {e : ParseError}
    (h : bracketOf opening (some closing) = .error e) :
    opening.bracket? = none ∧ e = .unexpectedToken opening ∨ e = .unexpectedToken closing := by
  unfold bracketOf at h
  split at h
  · rename_i hopening
    cases h
    exact .inl ⟨hopening, rfl⟩
  · dsimp only at h
    split at h
    · cases h
    · cases h
      exact .inr rfl

/-- A number token spells a finite number, or no value. -/
theorem of_number_token_eq_ok {t : Token} {v : Value} :
    ofNumberToken t = .ok v ↔
      ∃ x, v = .number x ∧ Binary64.ofText? t.text.toList = some x ∧ x.isFinite = true := by
  unfold ofNumberToken
  split
  · rename_i x hread
    split
    · rename_i hfinite
      simp only [Except.ok.injEq, hread, Option.some.injEq]
      exact ⟨fun h => ⟨x, h.symm, rfl, hfinite⟩, fun ⟨_, h, hx, _⟩ => by rw [h, hx]⟩
    · rename_i hfinite
      simp only [reduceCtorEq, false_iff, hread, Option.some.injEq]
      rintro ⟨_, -, rfl, h⟩
      exact hfinite h
  · rename_i hread
    simp [hread]

/-- A string token spells the string that its literal denotes. -/
theorem of_string_token_eq_ok {t : Token} {v : Value} :
    ofStringToken t = .ok v ↔
      ∃ text, v = .string (String.ofList text) ∧
        Text.Quoted.decode t.text.toList = .ok text := by
  unfold ofStringToken
  split
  · rename_i text hread
    simp only [Except.ok.injEq, hread]
    exact ⟨fun h => ⟨text, h.symm, rfl⟩, fun ⟨_, h, htext⟩ => by rw [h, htext]⟩
  · rename_i hread
    simp [hread]

/-- What the grammar admits is read as the grammar says. -/
theorem Spells.of_tokens {tokens : List Token} {items : List Value} (h : Spells tokens items) :
    ofTokens tokens = .ok items := by
  induction h with
  | nil => rw [ofTokens]
  | separator t rest items hkind _ ih =>
      rw [ofTokens]
      split <;> simp_all [TokenClass.isSeparator]
  | identifier t rest items hkind _ ih =>
      rw [ofTokens, hkind]
      exact except_bind_eq_ok.mpr ⟨items, ih, rfl⟩
  | number t x rest items hkind hread hfinite _ ih =>
      rw [ofTokens, hkind]
      have hitem := of_number_token_eq_ok.mpr ⟨x, rfl, hread, hfinite⟩
      exact except_bind_eq_ok.mpr ⟨_, hitem, except_bind_eq_ok.mpr ⟨items, ih, rfl⟩⟩
  | string t text rest items hkind hread _ ih =>
      rw [ofTokens, hkind]
      have hitem := of_string_token_eq_ok.mpr ⟨text, rfl, hread⟩
      exact except_bind_eq_ok.mpr ⟨_, hitem, except_bind_eq_ok.mpr ⟨items, ih, rfl⟩⟩
  | list opening closing b inside rest children items hopen hb hclose hb' hinside _ ihinside ih =>
      have hindex : closeIndex? (opening :: (inside ++ closing :: rest)) =
          some (inside.length + 1) := by
        rw [closeIndex?, close_index_from_opening hopen, hinside.close_index,
          (close_index_from_closing hclose 0 rest).1]
        simp
      have hbracket : bracketOf opening
          (opening :: (inside ++ closing :: rest))[inside.length + 1]? = .ok b := by
        rw [List.getElem?_cons_succ, List.getElem?_append_right (Nat.le_refl _), Nat.sub_self]
        exact bracket_of_eq_ok.mpr ⟨hb, hb'⟩
      have hdrop : (inside ++ closing :: rest).drop (inside.length + 1) = rest := by
        simp [List.drop_append]
      rw [ofTokens, hopen]
      simp only [hindex]
      refine except_bind_eq_ok.mpr ⟨b, hbracket, except_bind_eq_ok.mpr ⟨children, ?_,
        except_bind_eq_ok.mpr ⟨items, ?_, rfl⟩⟩⟩
      · rw [Nat.add_sub_cancel, List.take_left]
        exact ihinside
      · rw [hdrop]
        exact ih

/-- What is read is what the grammar says. -/
theorem spells_of_tokens {tokens : List Token} {items : List Value}
    (h : ofTokens tokens = .ok items) : Spells tokens items := by
  fun_induction ofTokens tokens generalizing items with
  | case1 =>
      cases h
      exact .nil
  | case2 t rest hkind ih | case3 t rest hkind ih =>
      exact .separator t _ _ (by simp [hkind, TokenClass.isSeparator]) (ih h)
  | case4 t rest hkind ih =>
      obtain ⟨later, hlater, heq⟩ := except_bind_eq_ok.mp h
      cases heq
      exact .identifier t _ _ hkind (ih hlater)
  | case5 t rest hkind ih =>
      obtain ⟨item, hitem, h⟩ := except_bind_eq_ok.mp h
      obtain ⟨later, hlater, heq⟩ := except_bind_eq_ok.mp h
      obtain ⟨x, rfl, hread, hfinite⟩ := of_number_token_eq_ok.mp hitem
      cases heq
      exact .number t x _ _ hkind hread hfinite (ih hlater)
  | case6 t rest hkind ih =>
      obtain ⟨item, hitem, h⟩ := except_bind_eq_ok.mp h
      obtain ⟨later, hlater, heq⟩ := except_bind_eq_ok.mp h
      obtain ⟨text, rfl, hread⟩ := of_string_token_eq_ok.mp hitem
      cases heq
      exact .string t text _ _ hkind hread (ih hlater)
  | case7 | case9 => cases h
  | case8 t rest hkind index hindex ihinside ihlater =>
      obtain ⟨inner, rfl, hreturns⟩ := close_index_eq_some hkind hindex
      -- The count only finds a closing token; that it closes this kind of list is checked after.
      obtain ⟨closing, hsplit, hget, hclosing⟩ := hreturns.split
      obtain ⟨b, hbracket, h⟩ := except_bind_eq_ok.mp h
      obtain ⟨children, hchildren, h⟩ := except_bind_eq_ok.mp h
      obtain ⟨later, hlater, heq⟩ := except_bind_eq_ok.mp h
      cases heq
      rw [List.getElem?_cons_succ, hget] at hbracket
      obtain ⟨hb, hb'⟩ := bracket_of_eq_ok.mp hbracket
      rw [hsplit]
      exact .list t closing b _ _ _ _ hkind hb hclosing hb' (ihinside hchildren) (ihlater hlater)

/-- The values that a token list is read as are those that it spells. -/
theorem of_tokens_eq_ok {tokens : List Token} {items : List Value} :
    ofTokens tokens = .ok items ↔ Spells tokens items :=
  ⟨spells_of_tokens, Spells.of_tokens⟩

/-- A source text is read as the items that its tokens spell. -/
theorem of_source_eq_ok {source : String} {items : List Value} :
    ofSource source = .ok items ↔ ∃ tokens, tokenize source = .ok tokens ∧ Spells tokens items := by
  unfold ofSource
  cases tokenize source with
  | error e => simp
  | ok tokens =>
      simp only [Except.ok.injEq, exists_eq_left', ← of_tokens_eq_ok]
      cases ofTokens tokens <;> simp

/-- An empty text has no items. -/
theorem of_source_nil : ofSource "" = .ok [] :=
  of_source_eq_ok.mpr ⟨[], tokenizeChars_nil, .nil⟩

/-- Two texts, the second on a line of its own, are read as the items of both. -/
theorem of_source_append {first second : String} {items others : List Value}
    (hfirst : ofSource first = .ok items) (hsecond : ofSource second = .ok others) :
    ofSource (first ++ "\n" ++ second) = .ok (items ++ others) := by
  obtain ⟨tokens, htokens, hitems⟩ := of_source_eq_ok.mp hfirst
  obtain ⟨later, hlater, hothers⟩ := of_source_eq_ok.mp hsecond
  refine of_source_eq_ok.mpr ⟨tokens ++ later, ?_, hitems.append hothers⟩
  rw [tokenize_append_newline htokens, hlater]
  rfl

end Value

end QuotedLisp
