import QuotedLisp.Proofs.Token.Lexemes
import QuotedLisp.Proofs.Value.Grammar

/-!
# Derivations of the grammar

A derivation is a sequence of items as a tree: atoms of one token each, and lists between two
brackets of one kind. It has tokens and values. What is read from a token list are the values of
a derivation that has these tokens, and no other derivation has them; see `parse_tokens_eq_ok`.
-/

namespace QuotedLisp

/-- The token that opens a list. -/
def Bracket.openToken (b : Bracket) : Token :=
  ⟨.opening, String.singleton b.openGlyph⟩

/-- The token that closes a list. -/
def Bracket.closeToken (b : Bracket) : Token :=
  ⟨.closing, String.singleton b.closeGlyph⟩

/-- The token that opens a list closes none. -/
theorem Bracket.openToken_kind (b : Bracket) : b.openToken.kind ≠ .closing := nofun

/-- The token that closes a list tells its kind. -/
theorem Bracket.closeToken_inj {b b' : Bracket} (h : b.closeToken = b'.closeToken) : b = b' := by
  revert h
  cases b <;> cases b' <;> decide

/-- A text of one character. -/
theorem eq_singleton_of_toList {text : String} {c : Char} (h : text.toList = [c]) :
    text = String.singleton c := by
  rw [← String.toList_inj, h, String.toList_singleton]

/-- A token begins or ends a list of one kind exactly if it is one of the two for that kind. -/
theorem Token.bracket?_eq_some {t : Token} {b : Bracket} :
    t.bracket? = some b ↔ t = b.openToken ∨ t = b.closeToken := by
  constructor
  · intro h
    obtain ⟨kind, text⟩ := t
    unfold bracket? at h
    split at h
    · rename_i c hkind htext
      obtain rfl : kind = .opening := hkind
      obtain rfl := eq_singleton_of_toList htext
      rw [Bracket.ofOpenGlyph?_eq_some.mp h]
      exact .inl rfl
    · rename_i c hkind htext
      obtain rfl : kind = .closing := hkind
      obtain rfl := eq_singleton_of_toList htext
      rw [Bracket.ofCloseGlyph?_eq_some.mp h]
      exact .inr rfl
    · cases h
  · rintro (rfl | rfl) <;> cases b <;> rfl

namespace Value

/-- `Atom t values` says that the token is an item by itself, with one value, or with none if it
only separates items. -/
inductive Atom : Token → List Value → Prop where
  | whitespace (text) : Atom ⟨.whitespace, text⟩ []
  | comment (text) : Atom ⟨.comment, text⟩ []
  | identifier (name) : Atom ⟨.identifier, name⟩ [.identifier name]
  | number (text x) :
      Binary64.ofText? text.toList = some x → x.isFinite = true →
      Atom ⟨.number, text⟩ [.number x]
  | string (literal text) :
      Text.Quoted.decode literal.toList = .ok text →
      Atom ⟨.string, literal⟩ [.string (String.ofList text)]

/-- A sequence of items. -/
inductive Derivation where
  | done
  | atom (t : Token) (values : List Value) (h : Atom t values) (rest : Derivation)
  | list (b : Bracket) (inside rest : Derivation)

namespace Derivation

/-- The tokens of all items in order. -/
def tokens : Derivation → List Token
  | done => []
  | atom t _ _ rest => t :: rest.tokens
  | list b inside rest => b.openToken :: (inside.tokens ++ b.closeToken :: rest.tokens)

/-- The values of all items in order. -/
def values : Derivation → List Value
  | done => []
  | atom _ values _ rest => values ++ rest.values
  | list b inside rest => .list b inside.values :: rest.values

end Derivation

/-- A token that is an item by itself is no bracket. -/
theorem Atom.no_bracket {t : Token} {values : List Value} (h : Atom t values) :
    t.kind ≠ .opening ∧ t.kind ≠ .closing := by
  cases h <;> exact ⟨nofun, nofun⟩

/-- The values of a token are determined by it. -/
theorem Atom.unique {t : Token} {values others : List Value} (h : Atom t values)
    (h' : Atom t others) : values = others := by
  cases h with
  | whitespace | comment | identifier =>
      cases h'
      rfl
  | number text x hread =>
      cases h' with
      | number _ y hother => rw [Option.some.inj (hread.symm.trans hother)]
  | string literal text hread =>
      cases h' with
      | string _ other hother => rw [Except.ok.inj (hread.symm.trans hother)]

/-- A derivation is a sequence of items as the grammar admits them. -/
theorem Derivation.spells (d : Derivation) : Spells d.tokens d.values := by
  induction d with
  | done => exact .nil
  | atom t values h rest ih =>
      cases h with
      | whitespace | comment => exact .separator _ _ _ rfl ih
      | identifier name => exact .identifier _ _ _ rfl ih
      | number text x hread hfinite => exact .number _ x _ _ rfl hread hfinite ih
      | string literal text hread => exact .string _ text _ _ rfl hread ih
  | list b inside rest ihinside ih =>
      have hopen := Token.bracket?_eq_some.mpr (.inl (Eq.refl b.openToken))
      have hclose := Token.bracket?_eq_some.mpr (.inr (Eq.refl b.closeToken))
      exact .list _ _ b _ _ _ _ rfl hopen rfl hclose ihinside ih

/-- What the grammar admits has a derivation. -/
theorem Spells.exists_derivation {tokens : List Token} {items : List Value}
    (h : Spells tokens items) : ∃ d : Derivation, d.tokens = tokens ∧ d.values = items := by
  induction h with
  | nil => exact ⟨.done, rfl, rfl⟩
  | separator t rest items hkind _ ih =>
      obtain ⟨d, rfl, rfl⟩ := ih
      obtain ⟨kind, text⟩ := t
      cases kind with
      | whitespace => exact ⟨.atom _ _ (.whitespace text) d, rfl, rfl⟩
      | comment => exact ⟨.atom _ _ (.comment text) d, rfl, rfl⟩
      | opening | closing | number | string | identifier => cases hkind
  | identifier t rest items hkind _ ih =>
      obtain ⟨d, rfl, rfl⟩ := ih
      obtain ⟨kind, name⟩ := t
      obtain rfl : kind = .identifier := hkind
      exact ⟨.atom _ _ (.identifier name) d, rfl, rfl⟩
  | number t x rest items hkind hread hfinite _ ih =>
      obtain ⟨d, rfl, rfl⟩ := ih
      obtain ⟨kind, text⟩ := t
      obtain rfl : kind = .number := hkind
      exact ⟨.atom _ _ (.number text x hread hfinite) d, rfl, rfl⟩
  | string t text rest items hkind hread _ ih =>
      obtain ⟨d, rfl, rfl⟩ := ih
      obtain ⟨kind, literal⟩ := t
      obtain rfl : kind = .string := hkind
      exact ⟨.atom _ _ (.string literal text hread) d, rfl, rfl⟩
  | list opening closing b inside rest children items hopen hb hclose hb' _ _ ihinside ih =>
      obtain ⟨d, rfl, rfl⟩ := ihinside
      obtain ⟨e, rfl, rfl⟩ := ih
      rcases Token.bracket?_eq_some.mp hb with rfl | rfl
      · rcases Token.bracket?_eq_some.mp hb' with rfl | rfl
        · cases hclose
        · exact ⟨.list b d e, rfl, rfl⟩
      · cases hopen

namespace Derivation

/-- What may follow a sequence of items that is complete: nothing, or the end of a list. -/
def Closes (rest : List Token) : Prop :=
  ∀ t ∈ rest.head?, t.kind = .closing

/-- A token that does not end a list is the first of an item. -/
theorem not_closes {t : Token} (h : t.kind ≠ .closing) (rest : List Token) :
    ¬ Closes (t :: rest) :=
  fun hcloses => h (hcloses t rfl)

/-- The end of a list closes what is inside. -/
theorem closes_closeToken (b : Bracket) (rest : List Token) : Closes (b.closeToken :: rest) := by
  rintro t ⟨⟩
  rfl

/-- Where a sequence of items ends, and what its items are, can be seen from the tokens. -/
theorem tokens_append_inj {d e : Derivation} {rest later : List Token} (hrest : Closes rest)
    (hlater : Closes later) (h : d.tokens ++ rest = e.tokens ++ later) :
    d = e ∧ rest = later := by
  induction d generalizing e rest later with
  | done =>
      have hstart : rest = e.tokens ++ later := h
      cases e with
      | done => exact ⟨rfl, hstart⟩
      | atom t values hatom e =>
          rw [hstart] at hrest
          exact absurd hrest (not_closes hatom.no_bracket.2 _)
      | list b inside e =>
          rw [hstart] at hrest
          exact absurd hrest (not_closes b.openToken_kind _)
  | atom t values hatom d ih =>
      cases e with
      | done =>
          have hstart : t :: (d.tokens ++ rest) = later := h
          rw [← hstart] at hlater
          exact absurd hlater (not_closes hatom.no_bracket.2 _)
      | atom t' values' hatom' e =>
          simp only [tokens, List.cons_append, List.cons.injEq] at h
          obtain ⟨rfl, htail⟩ := h
          obtain rfl := hatom.unique hatom'
          obtain ⟨rfl, rfl⟩ := ih hrest hlater htail
          exact ⟨rfl, rfl⟩
      | list b inside e =>
          simp only [tokens, List.cons_append, List.cons.injEq] at h
          exact absurd (congrArg Token.kind h.1) hatom.no_bracket.1
  | list b inside d ihinside ih =>
      cases e with
      | done =>
          have hstart : b.openToken :: (inside.tokens ++ b.closeToken :: d.tokens ++ rest) =
              later := h
          rw [← hstart] at hlater
          exact absurd hlater (not_closes b.openToken_kind _)
      | atom t values hatom e =>
          simp only [tokens, List.cons_append, List.cons.injEq] at h
          exact absurd (congrArg Token.kind h.1.symm) hatom.no_bracket.1
      | list b' inside' e =>
          simp only [tokens, List.cons_append, List.append_assoc, List.cons.injEq] at h
          -- What is inside ends at the closing bracket, which tells the kind of the list.
          obtain ⟨rfl, hafter⟩ := ihinside (closes_closeToken b _) (closes_closeToken b' _) h.2
          obtain ⟨hclose, htail⟩ := List.cons.inj hafter
          obtain rfl := Bracket.closeToken_inj hclose
          obtain ⟨rfl, rfl⟩ := ih hrest hlater htail
          exact ⟨rfl, rfl⟩

/-- No two derivations have the same tokens. -/
theorem eq_of_tokens_eq {d e : Derivation} (h : d.tokens = e.tokens) : d = e :=
  (@tokens_append_inj d e [] [] nofun nofun (by rw [h])).1

end Derivation

/-- Reads a token list as one list in the given bracket. -/
def parseTokens (tokens : List Token) (b : Bracket) : Except ParseError Value :=
  (ofTokens tokens).map (.list b)

/-- A token list is read as a tree exactly if it has a derivation, and the items of the tree are
then the values of the derivation; and a token list has one derivation at most. -/
theorem parse_tokens_eq_ok (tokens : List Token) :
    (∀ (b : Bracket) (tree : Value), parseTokens tokens b = .ok tree ↔
      ∃ d : Derivation, d.tokens = tokens ∧ tree = .list b d.values) ∧
    ∀ d e : Derivation, d.tokens = tokens → e.tokens = tokens → d = e := by
  refine ⟨fun b tree => ?_, fun d e hd he => Derivation.eq_of_tokens_eq (hd.trans he.symm)⟩
  rw [parseTokens, except_map_eq_ok]
  constructor
  · rintro ⟨items, hitems, rfl⟩
    obtain ⟨d, hd, rfl⟩ := (spells_of_tokens hitems).exists_derivation
    exact ⟨d, hd, rfl⟩
  · rintro ⟨d, rfl, rfl⟩
    exact ⟨d.values, d.spells.of_tokens, rfl⟩

/-- A curly list of a name, a comment, and an empty round list. The name is one that is never cut
out of a text, as it is spelled like a bracket. -/
def bracketNamed : Derivation :=
  .list .curly
    (.atom ⟨.identifier, "("⟩ _ (.identifier "(")
      (.atom ⟨.comment, "; )"⟩ _ (.comment "; )") (.list .round .done .done)))
    .done

/-- The brackets are those of the derivation, whatever the texts of the other tokens. -/
theorem parse_tokens_eq_ok_bracket_named :
    parseTokens [⟨.opening, "\x7b"⟩, ⟨.identifier, "("⟩, ⟨.comment, "; )"⟩, ⟨.opening, "("⟩,
        ⟨.closing, ")"⟩, ⟨.closing, "\x7d"⟩] .round =
      .ok (.list .round [.quoted [.identifier "(", .list .round []]]) ∧
    ∀ d : Derivation, d.tokens = bracketNamed.tokens → d = bracketNamed := by
  obtain ⟨hparse, hunique⟩ := parse_tokens_eq_ok bracketNamed.tokens
  exact ⟨(hparse .round _).mpr ⟨bracketNamed, rfl, rfl⟩, fun d hd => hunique d _ hd rfl⟩

end Value

end QuotedLisp
