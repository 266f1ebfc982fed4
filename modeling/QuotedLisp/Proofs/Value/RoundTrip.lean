import QuotedLisp.Proofs.Decimal.RoundTrip
import QuotedLisp.Proofs.Text.Quoted
import QuotedLisp.Proofs.Token.Tokens
import QuotedLisp.Proofs.Value.Grammar
import QuotedLisp.Value.Printer

/-!
# Values read back

The text of a printable value is source text for that value alone, and a source text spells
printable values only; see `parse_display`. A text is `Written` for some items if it is cut into
tokens that spell them, and so it is before a space or a closing glyph, which go on with no lexeme.
What printing puts between the items of a list is just that.
-/

namespace QuotedLisp

namespace TokenClass

/-- A number without a sign is scanned to its end. -/
theorem scanUnsigned_decimal (d : Decimal) : scanUnsigned d.toText = d.toText.length := by
  by_cases hexponent : 0 ≤ d.exponent
  · obtain ⟨-, hdigits, -⟩ := Decimal.toText_whole hexponent
    exact scanUnsigned_of_digits hdigits
  · obtain ⟨whole, places, htext, hnonempty, hwhole, hplaces, -⟩ :=
      Decimal.toText_places (d := d) (by omega)
    rw [htext]
    exact scanUnsigned_of_point hwhole hplaces fun h => hnonempty h.1

/-- A finite number is scanned to its end. -/
theorem scanNumber_toText (x : Binary64.Finite) :
    scanNumber (Binary64.toText (.finite x)) = (Binary64.toText (.finite x)).length := by
  by_cases hzero : x.mant = 0
  · rw [x.eq_zero_of_mant hzero]
    cases x.negative <;> decide
  · obtain ⟨c, rest, htext, hdigit⟩ := (Decimal.ofMagnitude x).toText_head
    have hscan := scanUnsigned_decimal (Decimal.ofMagnitude x)
    simp only [Binary64.toText, if_neg hzero]
    rw [htext] at hscan ⊢
    cases x.negative with
    | false =>
        show scanNumber (c :: rest) = (c :: rest).length
        rw [scanNumber, if_neg (not_sign_of_digit hdigit)]
        exact hscan
    | true =>
        show scanNumber ('-' :: c :: rest) = (c :: rest).length + 1
        simp [scanNumber, hscan]

end TokenClass

/-- The inside of a literal ends at the quote that closes it. -/
theorem scanStringBody_encode (s : List Char) :
    TokenClass.scanStringBody (s.flatMap Text.Quoted.encodeChar ++ ['"']) =
      some (s.flatMap Text.Quoted.encodeChar ++ ['"']).length := by
  induction s with
  | nil => rfl
  | cons c s ih =>
      rw [List.flatMap_cons, List.append_assoc]
      rcases Text.Quoted.encodeChar_cases c with ⟨letter, hcode, -⟩ | ⟨hcode, hslash, hquote⟩
      · rw [hcode]
        show (TokenClass.scanStringBody (s.flatMap Text.Quoted.encodeChar ++ ['"'])).map (· + 2) = _
        rw [ih]
        rfl
      · rw [hcode, List.singleton_append, TokenClass.scanStringBody_cons hslash hquote, ih]
        rfl

/-- The literal of a string is one lexeme. -/
theorem longestLexeme?_encode (s : List Char) :
    longestLexeme? (Text.Quoted.encode s) = some (.string, (Text.Quoted.encode s).length) := by
  have hall : TokenClass.all =
      [.whitespace, .comment, .opening, .closing, .number] ++ .string :: [.identifier] := rfl
  refine longestLexeme?_of_full hall (List.cons_ne_nil _ _) ?_ (by decide)
  show ((TokenClass.scanStringBody _).map (· + 1)).getD 0 = _
  rw [scanStringBody_encode]
  rfl

/-- Nothing goes on with a lexeme of a token here: the text is at its end, or what follows is a
space or a closing glyph. -/
def Boundary (rest : List Char) : Prop :=
  ∀ c ∈ rest.head?, c = ' ' ∨ ∃ b : Bracket, c = b.closeGlyph

/-- A space is a boundary. -/
theorem boundary_space (rest : List Char) : Boundary (' ' :: rest) := by
  intro c hc
  exact .inl (Option.some.inj hc).symm

/-- A closing glyph is a boundary. -/
theorem boundary_closing (b : Bracket) (rest : List Char) : Boundary (b.closeGlyph :: rest) := by
  intro c hc
  exact .inr ⟨b, (Option.some.inj hc).symm⟩

/-- A lexeme that is a token ends before a boundary. -/
theorem Boundary.ends_before {rest : List Char} (h : Boundary rest) {kind : TokenClass}
    (hkind : kind.isSeparator = false) : ∀ c ∈ rest.head?, kind.endsBefore c = true := by
  intro c hc
  rcases h c hc with rfl | ⟨b, rfl⟩
  · revert hkind
    cases kind <;> decide
  · revert hkind
    cases b <;> cases kind <;> decide

namespace Value

/-- The text is cut into tokens that spell the items, before any boundary. -/
def Written (text : List Char) (items : List Value) : Prop :=
  ∃ tokens, Spells tokens items ∧ ∀ rest, Boundary rest →
    tokenizeChars (text ++ rest) = (tokenizeChars rest).map (tokens ++ ·)

/-- A lexeme that spells a value is written for it. -/
theorem written_lexeme {kind : TokenClass} {lexeme : List Char} {v : Value}
    (h : longestLexeme? lexeme = some (kind, lexeme.length)) (hkind : kind.isSeparator = false)
    (hspells : Spells [⟨kind, String.ofList lexeme⟩] [v]) : Written lexeme [v] := by
  refine ⟨_, hspells, ?_⟩
  intro rest hrest
  have hadd : kind.addTo lexeme = fun tokens => ⟨kind, String.ofList lexeme⟩ :: tokens := by
    funext tokens
    simp [TokenClass.addTo, hkind]
  rw [tokenizeChars_append h (hrest.ends_before hkind), hadd]
  rfl

/-- Texts with a space between them are written for the items of both. -/
theorem Written.space {first second : List Char} {items others : List Value}
    (hfirst : Written first items) (hsecond : Written second others) :
    Written (first ++ ' ' :: second) (items ++ others) := by
  obtain ⟨tokens, hspells, hcut⟩ := hfirst
  obtain ⟨later, hlater, hcuts⟩ := hsecond
  refine ⟨tokens ++ later, hspells.append hlater, ?_⟩
  intro rest hrest
  -- The space ends the first text and is no part of the second.
  rw [List.append_assoc, List.cons_append, hcut _ (boundary_space _),
    tokenizeChars_space (by decide), hcuts rest hrest]
  cases tokenizeChars rest <;> simp [Except.map]

/-- A source text that can be read is written for its items, with the end of its last line. -/
theorem written_source {source : String} {items : List Value} (h : ofSource source = .ok items) :
    Written (source.toList ++ ['\n']) items := by
  obtain ⟨tokens, htokens, hspells⟩ := of_source_eq_ok.mp h
  refine ⟨tokens, hspells, ?_⟩
  intro rest _
  rw [List.append_assoc, List.singleton_append]
  exact tokenizeChars_append_newline htokens rest

/-- What is written can be read. -/
theorem Written.of_source {text : List Char} {items : List Value} (h : Written text items) :
    ofSource (String.ofList text) = .ok items := by
  obtain ⟨tokens, hspells, hcut⟩ := h
  have htokens : tokenize (String.ofList text) = .ok tokens := by
    have halone := hcut [] (by simp [Boundary])
    rw [List.append_nil, tokenizeChars_nil] at halone
    rw [tokenize, String.toList_ofList, halone]
    simp [Except.map]
  exact of_source_eq_ok.mpr ⟨tokens, htokens, hspells⟩

/-- Items that are written with a space between them are written together. -/
theorem written_spaced {items : List Value} (h : ∀ v ∈ items, Written v.toText [v]) :
    Written (spaced (toTexts items)) items := by
  induction items with
  | nil =>
      refine ⟨[], .nil, ?_⟩
      intro rest _
      show tokenizeChars rest = (tokenizeChars rest).map fun tokens => tokens
      cases tokenizeChars rest <;> rfl
  | cons v items ih =>
      have hv := h v List.mem_cons_self
      cases items with
      | nil => exact hv
      | cons next items =>
          exact hv.space (ih fun w hw => h w (List.mem_cons_of_mem v hw))

/-- Items between brackets are written as a list. -/
theorem Written.around {inside : List Char} {items : List Value} (h : Written inside items)
    (b : Bracket) : Written (b.around inside) [.list b items] := by
  obtain ⟨tokens, hspells, hcut⟩ := h
  have hopen : longestLexeme? [b.openGlyph] = some (.opening, 1) := by
    cases b <;> decide
  have hclose : longestLexeme? [b.closeGlyph] = some (.closing, 1) := by
    cases b <;> decide
  have hbracket : (⟨.opening, String.ofList [b.openGlyph]⟩ : Token).bracket? = some b ∧
      (⟨.closing, String.ofList [b.closeGlyph]⟩ : Token).bracket? = some b := by
    cases b <;> decide
  refine ⟨_, .list ⟨.opening, String.ofList [b.openGlyph]⟩ ⟨.closing, String.ofList [b.closeGlyph]⟩
    b tokens [] items [] rfl hbracket.1 rfl hbracket.2 hspells .nil, ?_⟩
  intro rest _
  have hopening := @tokenizeChars_append _ [b.openGlyph] (inside ++ b.closeGlyph :: rest) hopen
    fun _ _ => rfl
  have hclosing := @tokenizeChars_append _ [b.closeGlyph] rest hclose fun _ _ => rfl
  rw [List.singleton_append] at hopening hclosing
  show tokenizeChars (b.openGlyph :: (inside ++ [b.closeGlyph] ++ rest)) = _
  rw [List.append_assoc, List.singleton_append, hopening, hcut _ (boundary_closing b rest),
    hclosing]
  cases tokenizeChars rest <;> simp [Except.map, TokenClass.addTo, TokenClass.isSeparator]

/-- The values that have a source form: finite numbers, strings, names that are cut as one
identifier, and lists of such values. -/
inductive Printable : Value → Prop where
  | number (x) : x.isFinite = true → Printable (.number x)
  | string (text) : Printable (.string text)
  | identifier (name) : tokenize name = .ok [⟨.identifier, name⟩] → Printable (.identifier name)
  | list (b items) : (∀ v ∈ items, Printable v) → Printable (.list b items)

mutual

/-- The value has a source form, as a test. -/
def isPrintable : Value → Bool
  | .number x => x.isFinite
  | .string _ => true
  | .identifier name => longestLexeme? name.toList == some (.identifier, name.toList.length)
  | .list _ items => arePrintable items
  | .builtin _ | .closure .. | .error _ => false

/-- All values have a source form, as a test. -/
def arePrintable : List Value → Bool
  | [] => true
  | v :: rest => isPrintable v && arePrintable rest

end

mutual

/-- The test finds the values that have a source form. -/
theorem isPrintable_iff (v : Value) : v.isPrintable = true ↔ v.Printable := by
  cases v with
  | number x =>
      constructor
      · exact .number x
      · rintro ⟨_, hfinite⟩
        exact hfinite
  | string text => exact ⟨fun _ => .string text, fun _ => rfl⟩
  | identifier name =>
      rw [isPrintable, beq_iff_eq]
      constructor
      · intro h
        exact .identifier name (tokenize_identifier h)
      · intro h
        cases h with
        | identifier _ hname => exact (@tokenize_eq_singleton ⟨.identifier, name⟩).mp hname |>.2
  | list b items =>
      rw [isPrintable, arePrintable_iff items]
      constructor
      · exact .list b items
      · intro h
        cases h with
        | list _ _ hitems => exact hitems
  | builtin | closure | error => exact ⟨nofun, nofun⟩

/-- The test finds the lists of such values. -/
theorem arePrintable_iff (items : List Value) :
    arePrintable items = true ↔ ∀ v ∈ items, v.Printable := by
  cases items with
  | nil => simp [arePrintable]
  | cons v rest =>
      rw [arePrintable, Bool.and_eq_true, isPrintable_iff v, arePrintable_iff rest,
        List.forall_mem_cons]

end

/-- Whether a value has a source form can be decided. -/
instance (v : Value) : Decidable v.Printable :=
  decidable_of_iff _ (isPrintable_iff v)

/-- A printable value is written as its text. -/
theorem Printable.written {v : Value} (h : Printable v) : Written v.toText [v] := by
  induction h with
  | number x hfinite =>
      cases x with
      | finite x =>
          have hnumber := TokenClass.scanNumber_toText x
          have hne : Binary64.toText (.finite x) ≠ [] := by
            intro hnil
            have hread := Binary64.ofText?_toText x
            have hempty : Binary64.ofText? [] = none := by decide
            rw [hnil, hempty] at hread
            cases hread
          refine written_lexeme (longestLexeme?_number hne hnumber) rfl ?_
          refine .number _ (.finite x) [] [] rfl ?_ hfinite .nil
          rw [String.toList_ofList]
          exact Binary64.ofText?_toText x
      | infinity | nan => cases hfinite
  | string text =>
      refine written_lexeme (longestLexeme?_encode text.toList) rfl ?_
      have hread : Text.Quoted.decode (String.ofList (Text.Quoted.encode text.toList)).toList =
          .ok text.toList := by
        rw [String.toList_ofList]
        exact Text.Quoted.decode_encode text.toList
      have hspells := Spells.string ⟨.string, _⟩ text.toList [] [] rfl hread .nil
      rwa [String.ofList_toList] at hspells
  | identifier name hname =>
      obtain ⟨hkind, hlexeme⟩ := (@tokenize_eq_singleton ⟨.identifier, name⟩).mp hname
      refine written_lexeme hlexeme hkind ?_
      have hspells := Spells.identifier ⟨.identifier, name⟩ [] [] rfl .nil
      show Spells [⟨.identifier, String.ofList name.toList⟩] _
      rwa [String.ofList_toList]
  | list b items _ ih => exact (written_spaced ih).around b

/-- Tokens that are each alone in their own text spell printable values only. -/
theorem Spells.printable {tokens : List Token} {items : List Value} (h : Spells tokens items)
    (htokens : ∀ t ∈ tokens, tokenize t.text = .ok [t]) : ∀ v ∈ items, Printable v := by
  induction h with
  | nil => simp
  | separator t rest items _ _ ih => exact ih fun t' ht' => htokens t' (List.mem_cons_of_mem t ht')
  | identifier t rest items hkind _ ih =>
      have hname := htokens t List.mem_cons_self
      obtain ⟨kind, text⟩ := t
      obtain rfl : kind = .identifier := hkind
      exact List.forall_mem_cons.mpr ⟨.identifier text hname,
        ih fun t' ht' => htokens t' (List.mem_cons_of_mem _ ht')⟩
  | number t x rest items _ _ hfinite _ ih =>
      exact List.forall_mem_cons.mpr ⟨.number x hfinite,
        ih fun t' ht' => htokens t' (List.mem_cons_of_mem t ht')⟩
  | string t text rest items _ _ _ ih =>
      exact List.forall_mem_cons.mpr ⟨.string _,
        ih fun t' ht' => htokens t' (List.mem_cons_of_mem t ht')⟩
  | list opening closing b inside rest children items _ _ _ _ _ _ ihinside ih =>
      refine List.forall_mem_cons.mpr ⟨.list b children (ihinside ?_), ih ?_⟩
      · intro t ht
        exact htokens t (by simp [ht])
      · intro t ht
        exact htokens t (by simp [ht])

/-- Reads a source text as one list in the given bracket. -/
def parse (source : String) (b : Bracket) : Except Error Value :=
  (ofSource source).map (.list b)

/-- The text of a printable value is read as that value. -/
theorem Printable.of_source_display {v : Value} (h : Printable v) :
    ofSource v.display = .ok [v] :=
  h.written.of_source

/-- What a source text is read as is printable. -/
theorem printable_of_source {source : String} {items : List Value}
    (h : ofSource source = .ok items) : ∀ v ∈ items, Printable v := by
  obtain ⟨tokens, htokens, hspells⟩ := of_source_eq_ok.mp h
  exact hspells.printable fun t ht => tokenize_token htokens ht

/-- A printable value is read back from its text, as the only item, and whatever is read from any
source text is made of printable values, so that its text is read back too. -/
theorem parse_display :
    (∀ (v : Value) (b : Bracket), Printable v → parse v.display b = .ok (.list b [v])) ∧
      ∀ (source : String) (b : Bracket) (tree : Value), parse source b = .ok tree →
        ∃ items, tree = .list b items ∧ (∀ v ∈ items, Printable v) ∧
          ∀ c : Bracket, parse tree.display c = .ok (.list c [tree]) := by
  have hread (v : Value) (b : Bracket) (h : Printable v) :
      parse v.display b = .ok (.list b [v]) := by
    rw [parse, h.of_source_display]
    rfl
  refine ⟨hread, ?_⟩
  intro source b tree h
  obtain ⟨items, hsource, rfl⟩ := except_map_eq_ok.mp h
  have hitems := printable_of_source hsource
  exact ⟨items, rfl, hitems, fun c => hread _ c (.list b items hitems)⟩

/-- A list of a negative number, a name that begins like one, and a string of characters that mean
something elsewhere. -/
def signLed : Value :=
  .quoted [.number (Binary64.neg .one), .identifier "-x", .string "\";
) -1"]

/-- The list has a source form, and what is read from that form has one as well. -/
theorem parse_display_sign_led :
    Printable signLed ∧ parse signLed.display .round = .ok (.list .round [signLed]) ∧
      parse (Value.list .round [signLed]).display .curly =
        .ok (.quoted [.list .round [signLed]]) := by
  have hprintable : Printable signLed := by decide
  have hread := parse_display.1 signLed .round hprintable
  obtain ⟨-, -, -, hagain⟩ := parse_display.2 signLed.display .round _ hread
  exact ⟨hprintable, hread, hagain .curly⟩

end Value

end QuotedLisp
