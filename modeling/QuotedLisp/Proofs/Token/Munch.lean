import QuotedLisp.Proofs.Results
import QuotedLisp.Proofs.Token.Language
import QuotedLisp.Proofs.Token.Tokens

/-!
# Maximal munch

What it means to cut a text into lexemes, said with the languages of the classes only: each lexeme
is the longest word that any class has at the start of what is left, and of the classes that have
it the first (`Munch`). There is one way to do so (`Cut.isPrefix`), `tokenize` does it, and it fails
exactly where it cannot be gone on with (`tokenize_maximal_munch`).
-/

namespace QuotedLisp

/-- `Munch text kind word` says that the word is the lexeme at the start of the text and belongs to
the class: no word of any class there is longer, and no class before this one has the word. -/
structure Munch (text : List Char) (kind : TokenClass) (word : List Char) : Prop where
  starts : word <+: text
  nonempty : word ≠ []
  belongs : kind.pattern.Matches word
  longest : ∀ (other : TokenClass) (word' : List Char), word' <+: text →
    other.pattern.Matches word' → word'.length ≤ word.length
  first : ∀ other ∈ kind.before, ¬ other.pattern.Matches word

/-- The lexeme at the start of a text is the one that is cut off. -/
theorem munch_iff {text word : List Char} {kind : TokenClass} :
    Munch text kind word ↔ word <+: text ∧ longestLexeme? text = some (kind, word.length) := by
  rw [longestLexeme?_eq_some]
  constructor
  · intro h
    obtain ⟨rest, rfl⟩ := h.starts
    have hmax (other : TokenClass) : other.scan (word ++ rest) ≤ word.length :=
      TokenClass.scan_le_of_words (h.longest other)
    refine ⟨h.starts, Nat.le_antisymm (hmax kind) (TokenClass.length_le_scan h.belongs),
      List.length_pos_iff.mpr h.nonempty, hmax, fun other hother => ?_⟩
    refine Nat.lt_of_le_of_ne (hmax other) fun heq => h.first other hother ?_
    have hword := @TokenClass.matches_take_scan other (word ++ rest)
      (heq ▸ List.length_pos_iff.mpr h.nonempty)
    rwa [heq, List.take_left] at hword
  · rintro ⟨⟨rest, rfl⟩, hscan, hpos, hmax, hbefore⟩
    refine ⟨List.prefix_append word rest, List.length_pos_iff.mp hpos, ?_, ?_, ?_⟩
    · have hword := @TokenClass.matches_take_scan kind (word ++ rest) (hscan ▸ hpos)
      rwa [hscan, List.take_left] at hword
    · rintro other word' ⟨rest', htext⟩ hword'
      have hle := hmax other
      rw [← htext] at hle
      exact Nat.le_trans (TokenClass.length_le_scan hword') hle
    · intro other hother hword
      exact Nat.not_lt.mpr (TokenClass.length_le_scan hword) (hbefore other hother)

/-- What is cut off is a lexeme. -/
theorem Munch.of_longest {text : List Char} {kind : TokenClass} {length : Nat}
    (h : longestLexeme? text = some (kind, length)) : Munch text kind (text.take length) := by
  refine munch_iff.mpr ⟨List.take_prefix length text, ?_⟩
  rw [List.length_take_of_le (longestLexeme?_take h).1, h]

/-- A text has one lexeme at its start at most. -/
theorem Munch.unique {text word word' : List Char} {kind kind' : TokenClass}
    (h : Munch text kind word) (h' : Munch text kind' word') : kind = kind' ∧ word = word' := by
  obtain ⟨hstarts, hlongest⟩ := munch_iff.mp h
  obtain ⟨hstarts', hlongest'⟩ := munch_iff.mp h'
  rw [hlongest] at hlongest'
  simp only [Option.some.injEq, Prod.mk.injEq] at hlongest'
  obtain ⟨hkind, hlength⟩ := hlongest'
  exact ⟨hkind, (List.prefix_of_prefix_length_le hstarts hstarts' (Nat.le_of_eq hlength)).eq_of_length
    hlength⟩

/-- `Cut text lexemes rest` says that lexeme after lexeme is cut off the text until the rest is
left. -/
inductive Cut : List Char → List (TokenClass × List Char) → List Char → Prop where
  | done (rest) : Cut rest [] rest
  | next (kind word text lexemes rest) : Munch (word ++ text) kind word → Cut text lexemes rest →
      Cut (word ++ text) ((kind, word) :: lexemes) rest

/-- The tokens among lexemes: those that do not only separate others, with their exact texts. -/
def tokensOf (lexemes : List (TokenClass × List Char)) : List Token :=
  (lexemes.filter fun lexeme => !lexeme.1.isSeparator).map
    fun lexeme => ⟨lexeme.1, String.ofList lexeme.2⟩

/-- The first lexeme adds its token. -/
theorem tokensOf_cons (kind : TokenClass) (word : List Char)
    (lexemes : List (TokenClass × List Char)) :
    tokensOf ((kind, word) :: lexemes) = kind.addTo word (tokensOf lexemes) := by
  unfold TokenClass.addTo tokensOf
  cases hkind : kind.isSeparator <;> simp [hkind]

namespace Cut

variable {text rest rest' : List Char} {lexemes lexemes' : List (TokenClass × List Char)}

/-- No character is lost or changed. -/
theorem flatten (h : Cut text lexemes rest) : lexemes.flatMap (·.2) ++ rest = text := by
  induction h with
  | done rest => rfl
  | next kind word text lexemes rest hmunch hcut ih =>
      rw [List.flatMap_cons, List.append_assoc, ih]

/-- A cut that cannot go on goes as far as any. -/
theorem isPrefix (h : Cut text lexemes rest) (hend : ∀ kind word, ¬ Munch rest kind word)
    (h' : Cut text lexemes' rest') : lexemes' <+: lexemes := by
  induction h' generalizing lexemes with
  | done => exact List.nil_prefix
  | next kind word text' lexemes' rest' hmunch' hcut' ih =>
      generalize hwhole : word ++ text' = whole at h
      cases h with
      | done =>
          subst hwhole
          exact absurd hmunch' (hend kind word)
      | next kind₂ word₂ text₂ lexemes₂ rest hmunch hcut =>
          rw [hwhole] at hmunch'
          obtain ⟨rfl, rfl⟩ := hmunch'.unique hmunch
          obtain rfl := List.append_cancel_left hwhole
          exact (List.cons_prefix_cons).mpr ⟨rfl, ih hcut⟩

/-- There is nothing to cut off an empty text. -/
theorem not_munch_nil (kind : TokenClass) (word : List Char) : ¬ Munch [] kind word :=
  fun h => h.nonempty (List.prefix_nil.mp h.starts)

/-- A text can be cut to its end in one way at most. -/
theorem unique (h : Cut text lexemes []) (h' : Cut text lexemes' []) : lexemes = lexemes' :=
  (h'.isPrefix not_munch_nil h).eq_of_length_le (h.isPrefix not_munch_nil h').length_le

/-- The lexer takes the lexemes of a cut one after another. -/
theorem tokenizeChars (h : Cut text lexemes rest) :
    QuotedLisp.tokenizeChars text =
      (QuotedLisp.tokenizeChars rest).map (tokensOf lexemes ++ ·) := by
  induction h with
  | done rest => cases QuotedLisp.tokenizeChars rest <;> rfl
  | next kind word text lexemes rest hmunch hcut ih =>
      rw [tokenizeChars_of_longest (munch_iff.mp hmunch).2, List.drop_left, List.take_left, ih,
        tokensOf_cons]
      cases QuotedLisp.tokenizeChars rest with
      | error e => rfl
      | ok later => exact congrArg Except.ok (kind.addTo_append word (tokensOf lexemes) later)

/-- A text can always be cut until nothing is left that begins with a lexeme. -/
theorem exists_end (text : List Char) :
    ∃ lexemes rest, Cut text lexemes rest ∧ longestLexeme? rest = none := by
  cases hlongest : longestLexeme? text with
  | none => exact ⟨[], text, .done text, hlongest⟩
  | some best =>
      obtain ⟨kind, length⟩ := best
      have hpos := longestLexeme?_pos hlongest
      have hle := (longestLexeme?_take hlongest).1
      have hmunch := Munch.of_longest hlongest
      have hshorter : (text.drop length).length < text.length := by
        rw [List.length_drop]
        omega
      obtain ⟨lexemes, rest, hcut, hrest⟩ := exists_end (text.drop length)
      have hstep := Cut.next kind (text.take length) (text.drop length) lexemes rest
      rw [List.take_append_drop] at hstep
      exact ⟨_, rest, hstep hmunch hcut, hrest⟩
termination_by text.length

end Cut

/-- `Unrecognizable c rest` says why no lexeme begins with the character before the rest. -/
inductive Unrecognizable : Char → List Char → Prop where
  /-- A quote begins a string literal that nothing closes. -/
  | unterminated (rest) :
      (∀ word, word <+: '"' :: rest → ¬ TokenClass.string.pattern.Matches word) →
        Unrecognizable '"' rest
  /-- A point is part of a number only after or before a digit. -/
  | point (rest) : (∀ d ∈ rest.head?, d.isDigit = false) → Unrecognizable '.' rest
  /-- No word of any class begins with the character. -/
  | foreign (c rest) :
      (∀ (kind : TokenClass) (word : List Char), ¬ kind.pattern.Matches (c :: word)) →
        Unrecognizable c rest

/-- For any of the reasons no class has anything there. -/
theorem Unrecognizable.scan_eq_zero {c : Char} {rest : List Char} (h : Unrecognizable c rest)
    (kind : TokenClass) : kind.scan (c :: rest) = 0 := by
  refine Nat.eq_zero_of_not_pos fun hpos => ?_
  cases h with
  | unterminated rest hopen =>
      obtain rfl : kind = .string :=
        TokenClass.eq_of_begins rfl rfl (TokenClass.begins_of_scan_pos hpos)
      obtain ⟨word, hstarts, hword⟩ := TokenClass.scan_pos.mp hpos
      exact hopen word hstarts hword
  | point rest hnext =>
      obtain rfl : kind = .number := by
        have hbegins := TokenClass.begins_of_scan_pos hpos
        revert hbegins
        cases kind <;> decide
      exact Nat.ne_of_gt hpos (TokenClass.scanNumber_point.mpr hnext)
  | foreign c rest hforeign =>
      have hword := TokenClass.matches_take_scan hpos
      obtain ⟨length, hlength⟩ := Nat.exists_eq_succ_of_ne_zero (Nat.ne_of_gt hpos)
      rw [hlength, List.take_succ_cons] at hword
      exact hforeign kind _ hword

/-- Where no class has anything there is a reason for it. -/
theorem Unrecognizable.of_scan {c : Char} {rest : List Char}
    (h : ∀ kind : TokenClass, kind.scan (c :: rest) = 0) : Unrecognizable c rest := by
  by_cases hquote : c = '"'
  · subst hquote
    refine .unterminated rest fun word hstarts hword => ?_
    have hpos := TokenClass.scan_pos.mpr ⟨word, hstarts, hword⟩
    exact Nat.ne_of_gt hpos (h .string)
  by_cases hpoint : c = '.'
  · subst hpoint
    exact .point rest (TokenClass.scanNumber_point.mp (h .number))
  -- Any other character with which a lexeme may begin has one here.
  refine .foreign c rest fun kind word hword => ?_
  have hpos : 0 < kind.scan (c :: word) := by
    rw [TokenClass.scan_of_matches hword]
    exact Nat.succ_pos _
  obtain ⟨other, hother⟩ := TokenClass.exists_scan_pos (TokenClass.begins_of_scan_pos hpos)
    hquote hpoint rest
  exact Nat.ne_of_gt hother (h other)

/-- A text does not begin with a lexeme exactly for one of the reasons. -/
theorem unrecognizable_iff {c : Char} {rest : List Char} :
    Unrecognizable c rest ↔ longestLexeme? (c :: rest) = none :=
  ⟨fun h => longestLexeme?_eq_none.mpr h.scan_eq_zero,
    fun h => .of_scan (longestLexeme?_eq_none.mp h)⟩

/-- Where no lexeme begins a cut cannot go on. -/
theorem Unrecognizable.not_munch {c : Char} {rest : List Char} (h : Unrecognizable c rest)
    (kind : TokenClass) (word : List Char) : ¬ Munch (c :: rest) kind word := by
  intro hmunch
  have hlongest := (munch_iff.mp hmunch).2
  rw [unrecognizable_iff.mp h] at hlongest
  cases hlongest

/-- The tokens of a text are those of a cut that takes all of it. -/
theorem tokenize_eq_ok {source : String} {tokens : List Token} :
    tokenize source = .ok tokens ↔
      ∃ lexemes, Cut source.toList lexemes [] ∧ tokens = tokensOf lexemes := by
  constructor
  · intro h
    obtain ⟨lexemes, rest, hcut, hend⟩ := Cut.exists_end source.toList
    rw [tokenize, hcut.tokenizeChars] at h
    cases rest with
    | nil =>
        rw [tokenizeChars_nil] at h
        cases h
        exact ⟨lexemes, hcut, List.append_nil _⟩
    | cons c rest =>
        rw [tokenizeChars_of_none hend] at h
        cases h
  · rintro ⟨lexemes, hcut, rfl⟩
    rw [tokenize, hcut.tokenizeChars, tokenizeChars_nil]
    exact congrArg Except.ok (List.append_nil _)

/-- The error names the character where a cut that goes as far as any stops. -/
theorem tokenize_eq_error {source : String} {e : LexError} :
    tokenize source = .error e ↔
      ∃ lexemes c rest, Cut source.toList lexemes (c :: rest) ∧
        (∀ lexemes' rest', Cut source.toList lexemes' rest' → lexemes' <+: lexemes) ∧
        Unrecognizable c rest ∧ e = .unrecognizedCharacter c := by
  constructor
  · intro h
    obtain ⟨lexemes, rest, hcut, hend⟩ := Cut.exists_end source.toList
    rw [tokenize, hcut.tokenizeChars] at h
    cases rest with
    | nil =>
        rw [tokenizeChars_nil] at h
        cases h
    | cons c rest =>
        have hreason := unrecognizable_iff.mpr hend
        rw [tokenizeChars_of_none hend] at h
        cases h
        exact ⟨lexemes, c, rest, hcut, fun _ _ h => hcut.isPrefix hreason.not_munch h, hreason, rfl⟩
  · rintro ⟨lexemes, c, rest, hcut, -, hreason, rfl⟩
    rw [tokenize, hcut.tokenizeChars, tokenizeChars_of_none (unrecognizable_iff.mp hreason)]
    rfl

/-- A text has tokens exactly if it can be cut to its end, and they are those of the cut, of which
there is one at most and which loses nothing. Any other text is cut as far as can be, and the error
names the character there, with which no lexeme can begin. What a class has at the start of a text
is what the search for its pattern prefers. -/
theorem tokenize_maximal_munch (source : String) :
    (∀ tokens, tokenize source = .ok tokens ↔
      ∃ lexemes, Cut source.toList lexemes [] ∧ tokens = tokensOf lexemes) ∧
    (∀ lexemes lexemes', Cut source.toList lexemes [] → Cut source.toList lexemes' [] →
      lexemes = lexemes') ∧
    (∀ lexemes, Cut source.toList lexemes [] → lexemes.flatMap (·.2) = source.toList) ∧
    (∀ e, tokenize source = .error e ↔
      ∃ lexemes c rest, Cut source.toList lexemes (c :: rest) ∧
        (∀ lexemes' rest', Cut source.toList lexemes' rest' → lexemes' <+: lexemes) ∧
        Unrecognizable c rest ∧ e = .unrecognizedCharacter c) ∧
    ∀ (kind : TokenClass) (text : List Char),
      kind.pattern.rest? text =
        if kind.scan text = 0 then none else some (text.drop (kind.scan text)) := by
  refine ⟨fun _ => tokenize_eq_ok, fun _ _ h h' => h.unique h', fun lexemes h => ?_,
    fun _ => tokenize_eq_error, TokenClass.rest?_pattern⟩
  have htext := h.flatten
  rwa [List.append_nil] at htext

/-- A sign belongs to the number or to the name after it, whichever is longer, and alone it is a
name, after which a point is left. -/
theorem tokenize_maximal_munch_sign_led :
    (∃ lexemes, Cut "-7 -7x -7.5".toList lexemes [] ∧
      tokensOf lexemes = [⟨.number, "-7"⟩, ⟨.identifier, "-7x"⟩, ⟨.number, "-7.5"⟩]) ∧
    ∃ lexemes rest, Cut "-.".toList lexemes ('.' :: rest) ∧ Unrecognizable '.' rest := by
  have htokens : tokenize "-7 -7x -7.5" =
      .ok [⟨.number, "-7"⟩, ⟨.identifier, "-7x"⟩, ⟨.number, "-7.5"⟩] := by decide +kernel
  have herror : tokenize "-." = .error (.unrecognizedCharacter '.') := by decide +kernel
  obtain ⟨hok, -, -, -, -⟩ := tokenize_maximal_munch "-7 -7x -7.5"
  obtain ⟨-, -, -, hfails, -⟩ := tokenize_maximal_munch "-."
  obtain ⟨lexemes, hcut, hlexemes⟩ := (hok _).mp htokens
  obtain ⟨cut, c, rest, hstops, -, hreason, heq⟩ := (hfails _).mp herror
  cases heq
  exact ⟨⟨lexemes, hcut, hlexemes.symm⟩, cut, rest, hstops, hreason⟩

end QuotedLisp
