import QuotedLisp.Proofs.Token.Lexemes

/-!
# The tokens of a text

`tokenizeChars` one lexeme at a time. A token is found again in its own text, where it is the only
one (`tokenize_token`), and before any character that cannot go on with it
(`tokenizeChars_append`). A text that can be cut may be followed by a line of anything
(`tokenizeChars_append_newline`).
-/

namespace QuotedLisp

/-- The tokens that a lexeme adds to those after it: none, if it only separates them. -/
def TokenClass.addTo (kind : TokenClass) (lexeme : List Char) (tokens : List Token) : List Token :=
  if kind.isSeparator then tokens else ⟨kind, String.ofList lexeme⟩ :: tokens

/-- An empty text has no tokens. -/
@[simp] theorem tokenizeChars_nil : tokenizeChars [] = .ok [] := by
  rw [tokenizeChars]

/-- The longest lexeme is cut off, and the rest is cut in turn. -/
theorem tokenizeChars_of_longest {text : List Char} {kind : TokenClass} {length : Nat}
    (h : longestLexeme? text = some (kind, length)) :
    tokenizeChars text =
      (tokenizeChars (text.drop length)).map (kind.addTo (text.take length)) := by
  cases text with
  | nil => cases h
  | cons c rest =>
      rw [tokenizeChars]
      split
      · rename_i hnone
        rw [h] at hnone
        cases hnone
      · rename_i kind' length' hsome
        rw [h] at hsome
        cases hsome
        cases tokenizeChars ((c :: rest).drop length) <;> rfl

/-- A text that cannot be cut begins with the character that the error names. -/
theorem tokenizeChars_of_none {c : Char} {rest : List Char}
    (h : longestLexeme? (c :: rest) = none) :
    tokenizeChars (c :: rest) = .error (.unrecognizedCharacter c) := by
  rw [tokenizeChars]
  split
  · rfl
  · rename_i hsome
    rw [h] at hsome
    cases hsome

/-- A lexeme before a character that cannot go on with it is cut off as it is. -/
theorem tokenizeChars_append {kind : TokenClass} {lexeme rest : List Char}
    (h : longestLexeme? lexeme = some (kind, lexeme.length))
    (hrest : ∀ c ∈ rest.head?, kind.endsBefore c = true) :
    tokenizeChars (lexeme ++ rest) = (tokenizeChars rest).map (kind.addTo lexeme) := by
  rw [tokenizeChars_of_longest (longestLexeme?_append h hrest), List.drop_left, List.take_left]

/-- A successful cut is empty, or the longest lexeme followed by a cut of the rest. -/
theorem tokenizeChars_ok {text : List Char} {tokens : List Token}
    (h : tokenizeChars text = .ok tokens) :
    (text = [] ∧ tokens = []) ∨ ∃ kind length later,
      longestLexeme? text = some (kind, length) ∧
        tokenizeChars (text.drop length) = .ok later ∧
        tokens = kind.addTo (text.take length) later := by
  cases text with
  | nil =>
      rw [tokenizeChars_nil] at h
      cases h
      exact .inl ⟨rfl, rfl⟩
  | cons c rest =>
      right
      cases hlongest : longestLexeme? (c :: rest) with
      | none =>
          rw [tokenizeChars_of_none hlongest] at h
          cases h
      | some best =>
          obtain ⟨kind, length⟩ := best
          rw [tokenizeChars_of_longest hlongest] at h
          cases hlater : tokenizeChars ((c :: rest).drop length) with
          | error e =>
              rw [hlater] at h
              cases h
          | ok later =>
              rw [hlater] at h
              cases h
              exact ⟨kind, length, later, rfl, hlater, rfl⟩

/-- A run of white space is one lexeme. -/
theorem longestLexeme?_space {c : Char} (h : TokenClass.isSpace c = true) (rest : List Char) :
    longestLexeme? (c :: rest) =
      some (.whitespace, (rest.takeWhile TokenClass.isSpace).length + 1) := by
  have hscan : TokenClass.whitespace.scan (c :: rest) =
      (rest.takeWhile TokenClass.isSpace).length + 1 := by
    simp [TokenClass.scan, h]
  have hall : TokenClass.all = [] ++ .whitespace :: TokenClass.all.tail := rfl
  rw [← hscan]
  refine longestLexeme?_of_split hall (by omega) (by simp) fun other hother => ?_
  have hne : other ≠ .whitespace := by
    rintro rfl
    revert hother
    decide
  have hbegins : TokenClass.whitespace.begins c = true := h
  rw [TokenClass.scan_of_begins hbegins hne (.inl rfl)]
  exact Nat.zero_le _

/-- White space before a text does not count. -/
theorem tokenizeChars_space {c : Char} (h : TokenClass.isSpace c = true) (rest : List Char) :
    tokenizeChars (c :: rest) = tokenizeChars rest := by
  -- The lexeme takes all the white space that there is, also what the rest begins with.
  have hrun {c : Char} (h : TokenClass.isSpace c = true) (rest : List Char) :
      tokenizeChars (c :: rest) = tokenizeChars (rest.dropWhile TokenClass.isSpace) := by
    rw [tokenizeChars_of_longest (longestLexeme?_space h rest), List.drop_succ_cons,
      TokenClass.drop_length_takeWhile]
    cases tokenizeChars (rest.dropWhile TokenClass.isSpace) <;> rfl
  rw [hrun h]
  cases rest with
  | nil => rfl
  | cons d rest =>
      by_cases hd : TokenClass.isSpace d = true
      · rw [hrun hd, List.dropWhile_cons_of_pos hd]
      · rw [List.dropWhile_cons_of_neg hd]

namespace TokenClass

/-- Every lexeme but white space ends before the end of a line. -/
theorem ends_before_newline {kind : TokenClass} (h : kind ≠ .whitespace) :
    kind.endsBefore '\n' = true := by
  cases kind with
  | whitespace => exact absurd rfl h
  | comment | opening | closing | number | string | identifier => decide

/-- Tokens that follow are not affected by the lexeme before them. -/
theorem addTo_append (kind : TokenClass) (lexeme : List Char) (tokens later : List Token) :
    kind.addTo lexeme (tokens ++ later) = kind.addTo lexeme tokens ++ later := by
  unfold addTo
  split <;> rfl

end TokenClass

/-- The end of a line is a place to cut: a text before it that can be cut has its own tokens,
whatever follows. -/
theorem tokenizeChars_append_newline {text : List Char} {tokens : List Token}
    (h : tokenizeChars text = .ok tokens) (rest : List Char) :
    tokenizeChars (text ++ '\n' :: rest) = (tokenizeChars rest).map (tokens ++ ·) := by
  match text with
  | [] =>
      rw [tokenizeChars_nil] at h
      cases h
      rw [List.nil_append, tokenizeChars_space rfl]
      cases tokenizeChars rest <;> rfl
  | c :: text =>
      by_cases hspace : TokenClass.isSpace c = true
      · -- White space would run on into the end of the line, but one by one it does not count.
        rw [tokenizeChars_space hspace] at h
        rw [List.cons_append, tokenizeChars_space hspace]
        exact tokenizeChars_append_newline h rest
      · rcases tokenizeChars_ok h with ⟨hnil, -⟩ | ⟨kind, length, later, hlongest, hlater, rfl⟩
        · cases hnil
        · obtain ⟨hscan, hpos, -⟩ := longestLexeme?_spec hlongest
          have hne : kind ≠ .whitespace := by
            rintro rfl
            exact hspace (@TokenClass.begins_of_scan_pos .whitespace c text (hscan ▸ hpos))
          have hwhole : longestLexeme? (c :: text ++ '\n' :: rest) = some (kind, length) := by
            refine longestLexeme?_append hlongest ?_
            rintro d ⟨⟩
            exact TokenClass.ends_before_newline hne
          have hle : length ≤ (c :: text).length := (longestLexeme?_take hlongest).1
          rw [tokenizeChars_of_longest hwhole, List.drop_append_of_le_length hle,
            List.take_append_of_le_length hle, tokenizeChars_append_newline hlater rest]
          cases tokenizeChars rest with
          | error e => rfl
          | ok others => exact congrArg Except.ok (kind.addTo_append _ later others)
termination_by text.length
decreasing_by
  · exact Nat.lt_succ_self _
  · rw [List.length_drop]
    omega

/-- The same for a source text. -/
theorem tokenize_append_newline {first : String} {tokens : List Token}
    (h : tokenize first = .ok tokens) (second : String) :
    tokenize (first ++ "\n" ++ second) = (tokenize second).map (tokens ++ ·) := by
  have htext : (first ++ "\n" ++ second).toList = first.toList ++ '\n' :: second.toList := by
    simp [String.toList_append]
  rw [tokenize, htext]
  exact tokenizeChars_append_newline h second.toList

/-- Every token of a text is the longest lexeme at the start of its own text, which has nothing
else, and it is no separator. -/
theorem tokenizeChars_lexeme {text : List Char} {tokens : List Token}
    (h : tokenizeChars text = .ok tokens) {t : Token} (ht : t ∈ tokens) :
    t.kind.isSeparator = false ∧
      longestLexeme? t.text.toList = some (t.kind, t.text.toList.length) ∧
      t.text.toList.length ≤ text.length := by
  rcases tokenizeChars_ok h with ⟨rfl, rfl⟩ | ⟨kind, length, later, hlongest, hlater, rfl⟩
  · cases ht
  · have hpos := longestLexeme?_pos hlongest
    obtain ⟨hle, htake⟩ := longestLexeme?_take hlongest
    have hshorter : (text.drop length).length < text.length := by
      rw [List.length_drop]
      omega
    -- The token is the first one, or it belongs to the cut of the rest, which is shorter.
    unfold TokenClass.addTo at ht
    split at ht
    · obtain ⟨hkind, hlexeme, hlength⟩ := tokenizeChars_lexeme hlater ht
      exact ⟨hkind, hlexeme, by omega⟩
    · rename_i hkind
      rcases List.mem_cons.mp ht with rfl | ht
      · rw [String.toList_ofList, List.length_take_of_le hle]
        exact ⟨by simpa using hkind, htake, hle⟩
      · obtain ⟨hkind, hlexeme, hlength⟩ := tokenizeChars_lexeme hlater ht
        exact ⟨hkind, hlexeme, by omega⟩
termination_by text.length

/-- A text is cut into a single token that is all of it, exactly when it is the longest lexeme at
its own start and no separator. -/
theorem tokenize_eq_singleton {t : Token} :
    tokenize t.text = .ok [t] ↔ t.kind.isSeparator = false ∧
      longestLexeme? t.text.toList = some (t.kind, t.text.toList.length) := by
  constructor
  · intro h
    obtain ⟨hkind, hlexeme, -⟩ := tokenizeChars_lexeme h (List.mem_singleton_self t)
    exact ⟨hkind, hlexeme⟩
  · rintro ⟨hkind, hlexeme⟩
    rw [tokenize, tokenizeChars_of_longest hlexeme, List.drop_length, List.take_length,
      tokenizeChars_nil]
    simp [TokenClass.addTo, hkind, Except.map]

/-- A name is cut as one identifier if it is the longest lexeme at its own start. -/
theorem tokenize_identifier {name : String}
    (h : longestLexeme? name.toList = some (.identifier, name.toList.length)) :
    tokenize name = .ok [⟨.identifier, name⟩] :=
  (@tokenize_eq_singleton ⟨.identifier, name⟩).mpr ⟨rfl, h⟩

/-- Every token of a text is the only token of its own text. -/
theorem tokenize_token {source : String} {tokens : List Token} (h : tokenize source = .ok tokens)
    {t : Token} (ht : t ∈ tokens) : tokenize t.text = .ok [t] :=
  have hlexeme := tokenizeChars_lexeme h ht
  tokenize_eq_singleton.mpr ⟨hlexeme.1, hlexeme.2.1⟩

end QuotedLisp
