import QuotedLisp.Proofs.Decimal.Overflow
import QuotedLisp.Proofs.Token.Language
import QuotedLisp.Proofs.Value.RoundTrip

/-!
# Faults of source texts

The tokens of a source text are words of their classes, and reading them relies on nothing more: a
string token has its quotes, and each of its backslashes stands before a character of the string
(`decode_of_matches`), a number token spells a decimal (`Decimal.ofText?_of_matches`), and bracket
tokens have known glyphs. So of the ways in which a token list can be no sequence of items (`Fails`)
only the faults of the text itself are left (`Genuine`); see `only_genuine_faults`.
-/

namespace QuotedLisp

namespace Text.Quoted

open Pattern

/-- The characters that have a meaning after a backslash. -/
def escapes : List Char :=
  ['n', 't', 'r', '0', '\\', '"', '\'']

/-- Any other character has none. -/
theorem unescapeLetter?_eq_none {c : Char} : unescapeLetter? c = none ↔ c ∉ escapes := by
  fun_cases unescapeLetter? c with
  | case8 => simp_all [escapes]
  | _ => simp [escapes]

/-- `UnknownEscape text c` says that the first backslash of the text that stands before a character
without a meaning after it stands before the given one. -/
def UnknownEscape (text : List Char) (c : Char) : Prop :=
  ∃ before denoted after, text = before ++ '\\' :: c :: after ∧ decodeBody before = .ok denoted ∧
    c ∉ escapes

/-- Pieces of a string literal denote a string, unless there is an unknown escape sequence. -/
theorem decodeBody_of_matches {inside : List Char} (h : (many stringItem).Matches inside)
    {fault : Fault} (hfault : decodeBody inside = .error fault) :
    ∃ c, fault = .unknownEscape c ∧ UnknownEscape inside c := by
  generalize hp : many stringItem = p at h
  induction h with
  | none => cases hfault
  | more inner item later hitem _ _ ih =>
      cases hp
      simp only [stringItem, matches_either, matches_seq, matches_one] at hitem
      rcases hitem with ⟨_, _, rfl, ⟨c, rfl, hc⟩, letter, rfl, -⟩ | ⟨c, rfl, hc⟩
      · obtain rfl : c = '\\' := by simpa using hc
        simp only [List.cons_append, List.nil_append, decodeBody] at hfault
        split at hfault
        · rename_i hletter
          cases hfault
          exact ⟨letter, rfl, [], [], later, rfl, rfl, unescapeLetter?_eq_none.mp hletter⟩
        · rename_i denoted hletter
          obtain ⟨c, rfl, before, text, after, rfl, hbefore, hc⟩ :=
            ih (except_map_eq_error.mp hfault) rfl
          refine ⟨c, rfl, '\\' :: letter :: before, denoted :: text, after, rfl, ?_, hc⟩
          rw [decodeBody, hletter, hbefore]
          rfl
      · have hne : c ≠ '"' ∧ c ≠ '\\' := by simpa using hc
        rw [List.singleton_append, decodeBody_cons hne.2] at hfault
        obtain ⟨c', rfl, before, text, after, rfl, hbefore, hc'⟩ :=
          ih (except_map_eq_error.mp hfault) rfl
        refine ⟨c', rfl, c :: before, c :: text, after, rfl, ?_, hc'⟩
        rw [decodeBody_cons hne.2, hbefore]
        rfl
  | nothing | one | seq | left | right => cases hp

/-- A word of the class of strings denotes a string, unless there is an unknown escape sequence. -/
theorem decode_of_matches {literal : List Char} (h : (TokenClass.pattern .string).Matches literal)
    {fault : Fault} (hfault : decode literal = .error fault) :
    ∃ c, fault = .unknownEscape c ∧ UnknownEscape literal c := by
  simp only [TokenClass.pattern, stringBody, matches_seq, matches_one] at h
  obtain ⟨_, _, rfl, ⟨c, rfl, hc⟩, inside, _, rfl, hinside, d, rfl, hd⟩ := h
  obtain rfl : c = '"' := by simpa using hc
  obtain rfl : d = '"' := by simpa using hd
  have hbody : body? (['"'] ++ (inside ++ ['"'])) = some inside := by simp [body?]
  rw [decode, hbody] at hfault
  obtain ⟨c, rfl, before, text, after, rfl, hbefore, hc⟩ := decodeBody_of_matches hinside hfault
  refine ⟨c, rfl, '"' :: before, '"' :: text, after ++ ['"'], by simp, ?_, hc⟩
  rw [decodeBody_cons (by decide), hbefore]
  rfl

end Text.Quoted

section Numbers

open Pattern

/-- Digits, with a point after or between them or before them, spell a decimal. -/
theorem Decimal.ofText?_of_matches {word : List Char} (h : unsigned.Matches word) :
    ∃ d, ofText? word = some d := by
  rcases TokenClass.matches_unsigned h with ⟨hne, hword⟩ |
      ⟨whole, places, rfl, hwhole, hplaces, hne⟩
  · exact ⟨_, ofText?_whole hne hword⟩
  · exact ⟨_, ofText?_point hne hwhole hplaces⟩

/-- The sign of a number is split off, and a text without a sign is left as it is. -/
theorem Decimal.splitSign_of_matches {word : List Char}
    (h : (TokenClass.pattern .number).Matches word) : unsigned.Matches (splitSign word).2 := by
  simp only [TokenClass.pattern, matches_seq, matches_optional, matches_one] at h
  obtain ⟨sign, body, rfl, hsign, hbody⟩ := h
  rcases hsign with ⟨c, rfl, hc⟩ | rfl
  · have hc : c = '+' ∨ c = '-' := by simpa using hc
    rcases hc with rfl | rfl <;> exact hbody
  · obtain ⟨-, c, rest, rfl, hc⟩ := TokenClass.scanUnsigned_of_matches hbody
    rw [List.nil_append, splitSign]
    · exact hbody
    · rintro _ ⟨⟩
      exact hc (.inr rfl)
    · rintro _ ⟨⟩
      exact hc (.inl rfl)

end Numbers

namespace Token

/-- The token spells a decimal so large that it is read as infinity. -/
def Overflows (t : Token) : Prop :=
  ∃ (negative : Bool) (digits : List Char) (d : Decimal),
    Decimal.splitSign t.text.toList = (negative, digits) ∧ Decimal.ofText? digits = some d ∧
      d.Overflows ∧ Binary64.ofText? t.text.toList = some (.infinity negative)

/-- A token of a source text is a word of its class. -/
theorem matches_of_tokenize {t : Token} (h : tokenize t.text = .ok [t]) :
    t.kind.pattern.Matches t.text.toList := by
  obtain ⟨-, hlexeme⟩ := tokenize_eq_singleton.mp h
  obtain ⟨hscan, hpos, -⟩ := longestLexeme?_spec hlexeme
  have hmatches := TokenClass.matches_take_scan (hscan ▸ hpos)
  rwa [hscan, List.take_length] at hmatches

/-- A bracket token has a known glyph. -/
theorem bracket?_of_matches {t : Token} (hkind : t.kind = .opening ∨ t.kind = .closing)
    (h : t.kind.pattern.Matches t.text.toList) : ∃ b, t.bracket? = some b := by
  rw [← Option.isSome_iff_exists]
  rcases hkind with hkind | hkind
  · rw [hkind, TokenClass.pattern, TokenClass.oneOf_opening, Pattern.matches_one] at h
    obtain ⟨c, htext, hc⟩ := h
    simpa [bracket?, hkind, htext] using hc
  · rw [hkind, TokenClass.pattern, TokenClass.oneOf_closing, Pattern.matches_one] at h
    obtain ⟨c, htext, hc⟩ := h
    simpa [bracket?, hkind, htext] using hc

end Token

namespace Value

/-- A number token that is refused spells a decimal that is too large. -/
theorem ofNumberToken_error {t : Token} (h : (TokenClass.pattern .number).Matches t.text.toList)
    {e : ParseError} (he : ofNumberToken t = .error e) : e = .unexpectedToken t ∧ t.Overflows := by
  obtain ⟨d, hd⟩ := Decimal.ofText?_of_matches (Decimal.splitSign_of_matches h)
  obtain ⟨⟨negative, digits⟩, hsplit⟩ : ∃ split, Decimal.splitSign t.text.toList = split := ⟨_, rfl⟩
  rw [hsplit] at hd
  have hread : Binary64.ofText? t.text.toList = some (d.toBinary64 negative) := by
    simp [Binary64.ofText?, hsplit, hd]
  simp only [ofNumberToken, hread] at he
  rcases d.toBinary64_isFinite negative with hfinite | hinfinite
  · rw [if_pos hfinite] at he
    cases he
  · rw [hinfinite] at he hread
    cases he
    exact ⟨rfl, negative, digits, d, hsplit, hd, Decimal.toBinary64_eq_infinity.mp hinfinite, hread⟩

/-- A string token that is refused has an unknown escape sequence. -/
theorem ofStringToken_error {t : Token} (h : (TokenClass.pattern .string).Matches t.text.toList)
    {e : ParseError} (he : ofStringToken t = .error e) :
    ∃ c, e = .malformedString t.text (.unknownEscape c) ∧
      Text.Quoted.UnknownEscape t.text.toList c := by
  unfold ofStringToken at he
  split at he
  · cases he
  · rename_i fault hfault
    cases he
    obtain ⟨c, rfl, hc⟩ := Text.Quoted.decode_of_matches h hfault
    exact ⟨c, rfl, hc⟩

/-- A number token that is read as infinity is where the reading ends. -/
theorem ofTokens_infinity {t : Token} (hkind : t.kind = .number) {negative : Bool}
    (h : Binary64.ofText? t.text.toList = some (.infinity negative)) (rest : List Token) :
    ofTokens (t :: rest) = .error (.unexpectedToken t) := by
  have hitem : ofNumberToken t = .error (.unexpectedToken t) := by
    rw [ofNumberToken, h]
    rfl
  rw [ofTokens, hkind]
  exact except_bind_eq_error.mpr (.inl hitem)

/-- `Fails tokens e` lists the ways in which a token list can be no sequence of items. -/
inductive Fails (tokens : List Token) : ParseError → Prop where
  | endOfInput : Fails tokens .unexpectedEndOfInput
  | number (t e) : t ∈ tokens → t.kind = .number → ofNumberToken t = .error e → Fails tokens e
  | string (t e) : t ∈ tokens → t.kind = .string → ofStringToken t = .error e → Fails tokens e
  | opening (t) : t ∈ tokens → t.kind = .opening → t.bracket? = none →
      Fails tokens (.unexpectedToken t)
  | closing (t) : t ∈ tokens → t.kind = .closing → Fails tokens (.unexpectedToken t)

/-- A part of a token list fails as the whole does. -/
theorem Fails.mono {tokens others : List Token} {e : ParseError} (h : Fails tokens e)
    (hsubset : tokens ⊆ others) : Fails others e := by
  cases h with
  | endOfInput => exact .endOfInput
  | number t _ ht hkind he => exact .number t e (hsubset ht) hkind he
  | string t _ ht hkind he => exact .string t e (hsubset ht) hkind he
  | opening t ht hkind hb => exact .opening t (hsubset ht) hkind hb
  | closing t ht hkind => exact .closing t (hsubset ht) hkind

/-- There are no other ways in which a token list is refused. -/
theorem fails_of_tokens {tokens : List Token} {e : ParseError} (h : ofTokens tokens = .error e) :
    Fails tokens e := by
  fun_induction ofTokens tokens generalizing e with
  | case1 => cases h
  | case2 t rest hkind ih | case3 t rest hkind ih =>
      exact (ih h).mono (List.subset_cons_self t rest)
  | case4 t rest hkind ih =>
      exact (ih (except_bind_ok_eq_error.mp h)).mono (List.subset_cons_self t rest)
  | case5 t rest hkind ih =>
      rcases except_bind_eq_error.mp h with h | ⟨item, -, h⟩
      · exact .number t e List.mem_cons_self hkind h
      · exact (ih (except_bind_ok_eq_error.mp h)).mono (List.subset_cons_self t rest)
  | case6 t rest hkind ih =>
      rcases except_bind_eq_error.mp h with h | ⟨item, -, h⟩
      · exact .string t e List.mem_cons_self hkind h
      · exact (ih (except_bind_ok_eq_error.mp h)).mono (List.subset_cons_self t rest)
  | case7 =>
      cases h
      exact .endOfInput
  | case8 t rest hkind index hindex ihinside ihlater =>
      obtain ⟨inner, rfl, hreturns⟩ := close_index_eq_some hkind hindex
      -- The count ends at a closing token, of whichever kind of list.
      obtain ⟨closing, -, hget, hclosing⟩ := hreturns.split
      rw [List.getElem?_cons_succ, hget] at h
      rcases except_bind_eq_error.mp h with h | ⟨b, -, h⟩
      · rcases bracketOf_error h with ⟨hnone, rfl⟩ | rfl
        · exact .opening t List.mem_cons_self hkind hnone
        · exact .closing closing (List.mem_cons_of_mem t (List.mem_of_getElem? hget)) hclosing
      · rcases except_bind_eq_error.mp h with h | ⟨children, -, h⟩
        · exact (ihinside h).mono fun _ ht => List.mem_cons_of_mem t (List.mem_of_mem_take ht)
        · exact (ihlater (except_bind_ok_eq_error.mp h)).mono fun _ ht =>
            List.mem_cons_of_mem t (List.mem_of_mem_drop ht)
  | case9 t rest hkind =>
      cases h
      exact .closing t List.mem_cons_self hkind

/-- `Genuine tokens e` lists the faults that are those of a text, and not of its cut into tokens. -/
inductive Genuine (tokens : List Token) : ParseError → Prop where
  | endOfInput : Genuine tokens .unexpectedEndOfInput
  | escape (literal c) :
      ⟨.string, literal⟩ ∈ tokens → Text.Quoted.UnknownEscape literal.toList c →
      Genuine tokens (.malformedString literal (.unknownEscape c))
  | closing (t b) :
      t ∈ tokens → t.kind = .closing → t.bracket? = some b → Genuine tokens (.unexpectedToken t)
  | overflow (t) :
      t ∈ tokens → t.kind = .number → t.Overflows → Genuine tokens (.unexpectedToken t)

/-- Tokens that are words of their classes have no other faults. -/
theorem Fails.genuine {tokens : List Token} {e : ParseError} (h : Fails tokens e)
    (hwords : ∀ t ∈ tokens, t.kind.pattern.Matches t.text.toList) : Genuine tokens e := by
  cases h with
  | endOfInput => exact .endOfInput
  | number t _ ht hkind he =>
      obtain ⟨rfl, hoverflows⟩ := ofNumberToken_error (hkind ▸ hwords t ht) he
      exact .overflow t ht hkind hoverflows
  | string t _ ht hkind he =>
      obtain ⟨c, rfl, hc⟩ := ofStringToken_error (hkind ▸ hwords t ht) he
      exact .escape t.text c (hkind ▸ ht) hc
  | opening t ht hkind hb =>
      obtain ⟨b, hopened⟩ := Token.bracket?_of_matches (.inl hkind) (hwords t ht)
      rw [hb] at hopened
      cases hopened
  | closing t ht hkind =>
      obtain ⟨b, hclosed⟩ := Token.bracket?_of_matches (.inr hkind) (hwords t ht)
      exact .closing t b ht hkind hclosed

/-- A source text that can be cut into tokens but not read has a fault of its own. -/
theorem genuine_of_parse {source : String} {b : Bracket} {e : ParseError}
    (h : parse source b = .error (.parse e)) :
    ∃ tokens, tokenize source = .ok tokens ∧ Genuine tokens e := by
  have hsource : ofSource source = .error (.parse e) := except_map_eq_error.mp h
  unfold ofSource at hsource
  cases htokens : tokenize source with
  | error _ =>
      rw [htokens] at hsource
      cases hsource
  | ok tokens =>
      rw [htokens] at hsource
      cases hitems : ofTokens tokens with
      | error _ =>
          simp only [hitems] at hsource
          cases hsource
          exact ⟨tokens, rfl, (fails_of_tokens hitems).genuine fun t ht =>
            Token.matches_of_tokenize (tokenize_token htokens ht)⟩
      | ok items =>
          simp only [hitems] at hsource
          cases hsource

/-- It is refused for the reason for which its tokens are. -/
theorem parse_of_tokens_error {source : String} {tokens : List Token} {e : ParseError}
    (htokens : tokenize source = .ok tokens) (h : ofTokens tokens = .error e) (b : Bracket) :
    parse source b = .error (.parse e) := by
  rw [parse, ofSource, htokens]
  simp only [h]
  rfl

/-- What a source text is refused for, once it is cut into tokens, is a fault of the text. A string
literal is refused for an unknown escape sequence only: its quotes are there, and its last backslash
stands before a character. A token that is not expected is a bracket that closes a list, with a
glyph that is known, or it is a number, which spells a decimal so large that it is read as
infinity. -/
theorem only_genuine_faults (source : String) (b : Bracket) :
    (∀ literal fault, parse source b = .error (.parse (.malformedString literal fault)) →
      ∃ tokens c, tokenize source = .ok tokens ∧ ⟨.string, literal⟩ ∈ tokens ∧
        fault = .unknownEscape c ∧ Text.Quoted.UnknownEscape literal.toList c) ∧
    ∀ t, parse source b = .error (.parse (.unexpectedToken t)) →
      ∃ tokens, tokenize source = .ok tokens ∧ t ∈ tokens ∧
        (t.kind = .closing ∧ (∃ closed, t.bracket? = some closed) ∨
          t.kind = .number ∧ t.Overflows) := by
  constructor
  · intro literal fault h
    obtain ⟨tokens, htokens, hgenuine⟩ := genuine_of_parse h
    cases hgenuine with
    | escape _ c ht hc => exact ⟨tokens, c, htokens, ht, rfl, hc⟩
  · intro t h
    obtain ⟨tokens, htokens, hgenuine⟩ := genuine_of_parse h
    cases hgenuine with
    | closing _ closed ht hkind hclosed =>
        exact ⟨tokens, htokens, ht, .inl ⟨hkind, closed, hclosed⟩⟩
    | overflow _ ht hkind hoverflows => exact ⟨tokens, htokens, ht, .inr ⟨hkind, hoverflows⟩⟩

/-- A whole number past every double. -/
def manyNines : Token :=
  ⟨.number, String.ofList (List.replicate 309 '9')⟩

/-- The whole number is cut as one token, which is refused. -/
theorem parse_manyNines (b : Bracket) :
    parse manyNines.text b = .error (.parse (.unexpectedToken manyNines)) := by
  have htext : manyNines.text.toList = List.replicate 309 '9' := String.toList_ofList
  have htokens : tokenize manyNines.text = .ok [manyNines] := by
    rw [tokenize_eq_singleton, htext]
    exact ⟨rfl, by decide +kernel⟩
  have hread : Binary64.ofText? manyNines.text.toList = some (.infinity false) := by
    rw [htext]
    decide +kernel
  exact parse_of_tokens_error htokens (ofTokens_infinity rfl hread []) b

/-- A literal with an escaped backslash, an escaped quote and an escape sequence without meaning. -/
def badEscape : String :=
  "\"\\\\\\\"\\q\""

/-- The literal is refused for the last of its escape sequences, inside lists too, a list for a
bracket of the other kind at its end, and a number for its size. -/
theorem only_genuine_faults_refused :
    parse ("(a (" ++ badEscape ++ "))") .curly =
        .error (.parse (.malformedString badEscape (.unknownEscape 'q'))) ∧
      Text.Quoted.UnknownEscape badEscape.toList 'q' ∧
      parse "\x7b1 (2\x7d 3)" .round = .error (.parse (.unexpectedToken ⟨.closing, ")"⟩)) ∧
      (∃ closed, Token.bracket? ⟨.closing, ")"⟩ = some closed) ∧
      parse manyNines.text .round = .error (.parse (.unexpectedToken manyNines)) ∧
      manyNines.Overflows := by
  have hescape : parse ("(a (" ++ badEscape ++ "))") .curly =
      .error (.parse (.malformedString badEscape (.unknownEscape 'q'))) := by decide +kernel
  have hclosing : parse "\x7b1 (2\x7d 3)" .round =
      .error (.parse (.unexpectedToken ⟨.closing, ")"⟩)) := by decide +kernel
  have hnumber := parse_manyNines .round
  obtain ⟨-, c, -, -, heq, hc⟩ := (only_genuine_faults _ _).1 _ _ hescape
  cases heq
  obtain ⟨-, -, -, ⟨-, hglyph⟩ | ⟨hkind, -⟩⟩ := (only_genuine_faults _ _).2 _ hclosing
  · obtain ⟨-, -, -, ⟨hkind, -⟩ | ⟨-, hoverflows⟩⟩ := (only_genuine_faults _ _).2 _ hnumber
    · cases hkind
    · exact ⟨hescape, hc, hclosing, hglyph, hnumber, hoverflows⟩
  · cases hkind

end Value

end QuotedLisp
