import QuotedLisp.Proofs.Token.Lexemes
import QuotedLisp.Proofs.Token.Pattern

/-!
# The languages of the token classes

Each class of tokens has a pattern, and the lexemes of the class are its words. The scan of a class
takes the word that the search for the pattern prefers (`rest?_pattern`), and no other word at the
start of the text is longer (`length_le_scan`).
-/

namespace QuotedLisp

/-- There are two brackets. -/
theorem Bracket.exists {P : Bracket → Prop} : (∃ b, P b) ↔ P .round ∨ P .curly := by
  constructor
  · rintro ⟨b, hb⟩
    cases b with
    | round => exact .inl hb
    | curly => exact .inr hb
  · rintro (h | h)
    · exact ⟨_, h⟩
    · exact ⟨_, h⟩

namespace Pattern

/-- One character of a set. -/
abbrev oneOf (set : List Char) : Pattern :=
  one fun c => set.contains c

/-- One character that is not in a set. -/
abbrev noneOf (set : List Char) : Pattern :=
  one fun c => !set.contains c

/-- A decimal digit. -/
abbrev digit : Pattern :=
  one Char.isDigit

/-- The word of a number after its sign: digits, with a point after or between them, or a point
with digits after it. -/
def unsigned : Pattern :=
  either (seq (atLeastOnce digit) (seq (optional (oneOf ['.'])) (many digit)))
    (seq (oneOf ['.']) (atLeastOnce digit))

/-- A piece of a string literal: any character after a backslash, or one that is neither quote nor
backslash. -/
def stringItem : Pattern :=
  either (seq (oneOf ['\\']) (noneOf [])) (noneOf ['"', '\\'])

/-- The rest of a string literal after the quote that begins it. -/
def stringBody : Pattern :=
  seq (many stringItem) (oneOf ['"'])

end Pattern

namespace TokenClass

/-- A letter without marks, or a sign that names may hold. -/
def namesBegin (c : Char) : Bool :=
  c.isAlpha || ['_', '+', '-', '*', '/', '\\', '=', '<', '>', '!', '&'].contains c

open Pattern in
/-- The pattern of a class. -/
def pattern : TokenClass → Pattern
  | .whitespace => atLeastOnce (oneOf [' ', '\t', '\r', '\n'])
  | .comment => seq (oneOf [';']) (many (noneOf ['\n']))
  | .opening => oneOf ['(', '\x7b']
  | .closing => oneOf [')', '\x7d']
  | .number => seq (optional (oneOf ['+', '-'])) unsigned
  | .string => seq (oneOf ['"']) stringBody
  | .identifier => seq (one namesBegin) (many (one fun c => namesBegin c || c.isDigit))

/-- White space is what its pattern is made of. -/
theorem oneOf_space : Pattern.oneOf [' ', '\t', '\r', '\n'] = .one isSpace := by
  refine congrArg Pattern.one (funext fun c => ?_)
  rw [Bool.eq_iff_iff]
  simp [isSpace, or_assoc]

/-- The opening glyphs are those of the pattern. -/
theorem oneOf_opening :
    Pattern.oneOf ['(', '\x7b'] = .one fun c => (Bracket.ofOpenGlyph? c).isSome := by
  refine congrArg Pattern.one (funext fun c => ?_)
  rw [Bool.eq_iff_iff]
  simp only [Option.isSome_iff_exists, Bracket.ofOpenGlyph?_eq_some]
  simp [Bracket.exists, Bracket.openGlyph]

/-- The closing glyphs are those of the pattern. -/
theorem oneOf_closing :
    Pattern.oneOf [')', '\x7d'] = .one fun c => (Bracket.ofCloseGlyph? c).isSome := by
  refine congrArg Pattern.one (funext fun c => ?_)
  rw [Bool.eq_iff_iff]
  simp only [Option.isSome_iff_exists, Bracket.ofCloseGlyph?_eq_some]
  simp [Bracket.exists, Bracket.closeGlyph]

/-- A comment goes on with anything but the end of the line. -/
theorem noneOf_newline : Pattern.noneOf ['\n'] = .one (· != '\n') := by
  refine congrArg Pattern.one (funext fun c => ?_)
  rw [Bool.eq_iff_iff]
  simp

/-- Names begin as their pattern does. -/
theorem namesBegin_eq : namesBegin = beginsIdentifier := by
  funext c
  have hsigns : "_+-*/\\=<>!&".toList =
      ['_', '+', '-', '*', '/', '\\', '=', '<', '>', '!', '&'] := by decide
  rw [namesBegin, beginsIdentifier, hsigns]

open Pattern

/-- What is left of a text after what may follow the leading digits of a number. -/
def afterFraction : List Char → List Char
  | '.' :: rest => rest.dropWhile Char.isDigit
  | text => text

/-- What may follow the leading digits of a number can always be had. -/
theorem rest?_fraction (text : List Char) :
    (seq (optional (oneOf ['.'])) (many digit)).rest? (text.dropWhile Char.isDigit) =
      some (afterFraction (text.dropWhile Char.isDigit)) := by
  rw [rest?_seq_of_isSome fun text => by rw [rest?_many_one]; rfl]
  induction text with
  | nil => rfl
  | cons c rest ih =>
      by_cases hdigit : c.isDigit = true
      · rw [List.dropWhile_cons_of_pos hdigit]
        exact ih
      · rw [List.dropWhile_cons_of_neg hdigit]
        by_cases hpoint : c = '.'
        · subst hpoint
          simp [afterFraction]
        · simp [hpoint, hdigit, afterFraction]

/-- A number that begins with digits leaves what is left after its fraction. -/
theorem drop_scanAfter {text tail : List Char} {whole : Nat} (h : text.drop whole = tail)
    (hpos : whole ≠ 0) : text.drop (scanAfter whole tail) = afterFraction tail := by
  unfold scanAfter
  split
  · rename_i rest
    rw [if_neg (by omega), Nat.add_assoc, ← List.drop_drop, h, Nat.add_comm 1, List.drop_succ_cons]
    exact drop_length_takeWhile _ rest
  · rename_i hpoint
    rw [h, afterFraction]
    exact hpoint

/-- The search for a number without a sign finds what the scan counts. -/
theorem rest?_unsigned (text : List Char) :
    unsigned.rest? text =
      if scanUnsigned text = 0 then none else some (text.drop (scanUnsigned text)) := by
  have hfraction (text : List Char) :
      ((seq (optional (oneOf ['.'])) (many digit)).rest? text).isSome = true := by
    rw [rest?_seq_of_isSome fun text => by rw [rest?_many_one]; rfl]
    simp
  rw [unsigned, rest?_either, rest?_seq_of_isSome hfraction]
  cases text with
  | nil => rfl
  | cons c rest =>
      rw [rest?_atLeastOnce_one]
      by_cases hdigit : c.isDigit = true
      · -- The leading digits are one word, and what follows them decides about the rest.
        have hne : digitCount (c :: rest) ≠ 0 := by simp [digitCount, hdigit]
        have hle := le_scanAfter (digitCount (c :: rest)) ((c :: rest).dropWhile Char.isDigit)
        have hdrop := drop_scanAfter (drop_length_takeWhile Char.isDigit (c :: rest)) hne
        rw [← digitCount] at hdrop
        rw [scanUnsigned_eq, if_pos hdigit, if_neg (by omega), hdrop,
          List.dropWhile_cons_of_pos hdigit, Option.bind_some, rest?_fraction]
        rfl
      · rw [if_neg hdigit, Option.bind_none, Option.none_or]
        have hcount : digitCount (c :: rest) = 0 := by simp [digitCount, hdigit]
        rw [scanUnsigned_eq, hcount, List.dropWhile_cons_of_neg hdigit]
        by_cases hpoint : c = '.'
        · subst hpoint
          cases rest with
          | nil => rfl
          | cons d rest =>
              have hplaces := drop_length_takeWhile Char.isDigit (d :: rest)
              by_cases hd : d.isDigit = true
              · have hne : digitCount (d :: rest) ≠ 0 := by simp [digitCount, hd]
                have hdrop : (d :: rest).drop (digitCount (d :: rest)) = rest.dropWhile Char.isDigit := by
                  rw [digitCount, drop_length_takeWhile, List.dropWhile_cons_of_pos hd]
                simp [scanAfter, hne, hd, Nat.add_comm 1, hdrop]
              · simp [scanAfter, digitCount, hd]
        · simp [scanAfter_of_ne hpoint, hpoint]

/-- The search for a number finds what the scan counts. -/
theorem rest?_number (text : List Char) :
    (pattern .number).rest? text =
      if scanNumber text = 0 then none else some (text.drop (scanNumber text)) := by
  rw [pattern, rest?_seq]
  cases text with
  | nil => rfl
  | cons c rest =>
      by_cases hsign : c = '+' ∨ c = '-'
      · -- A number does not begin at its sign once more.
        have hnone : unsigned.rest? (c :: rest) = none := by
          rcases hsign with rfl | rfl <;> simp [rest?_unsigned, scanUnsigned, digitCount]
        have hremainders : (optional (oneOf ['+', '-'])).remainders (c :: rest) =
            [rest, c :: rest] := by simp [Pattern.optional, remainders, hsign]
        rw [scanNumber, if_pos hsign, hremainders]
        by_cases hbody : scanUnsigned rest = 0
        · simp [rest?_unsigned rest, hbody, hnone]
        · simp [rest?_unsigned rest, hbody]
      · have hremainders : (optional (oneOf ['+', '-'])).remainders (c :: rest) =
            [c :: rest] := by simp [Pattern.optional, remainders, hsign]
        rw [scanNumber, if_neg hsign, hremainders, List.findSome?_singleton, rest?_unsigned]

/-- One character of a string literal, or two if the first is a backslash. -/
theorem remainders_stringItem (text : List Char) :
    stringItem.remainders text =
      match text with
      | [] => []
      | ['\\'] => []
      | '\\' :: _ :: rest => [rest]
      | c :: rest => if c = '"' then [] else [rest] := by
  unfold stringItem
  split
  · rfl
  · rfl
  · simp [remainders]
  · rename_i c rest hend hescape
    have hslash := ne_backslash hend hescape
    by_cases hquote : c = '"' <;> simp [remainders, hslash, hquote]

/-- The search for the end of a string literal finds what the scan finds. -/
theorem rest?_stringBody (text : List Char) :
    stringBody.rest? text = (scanStringBody text).map text.drop := by
  rw [stringBody]
  fun_induction scanStringBody text with
  | case1 | case2 => rfl
  | case3 c rest ih =>
      have hshorter : rest.length < ('\\' :: c :: rest).length :=
        Nat.lt_succ_of_lt (Nat.lt_succ_self _)
      rw [rest?_many_seq_of_step (remainders_stringItem _) hshorter, ih]
      simp [Function.comp_def]
  | case4 rest =>
      rw [rest?_many_seq_of_end (remainders_stringItem _)]
      rfl
  | case5 c rest hend hescape hquote ih =>
      have hstep : stringItem.remainders (c :: rest) = [rest] := by
        rw [remainders_stringItem]
        simp [hquote]
      rw [rest?_many_seq_of_step hstep (Nat.lt_succ_self _), ih]
      simp [hquote, Function.comp_def]

/-- The search for a lexeme of a class finds what the scan of the class counts. -/
theorem rest?_pattern (kind : TokenClass) (text : List Char) :
    kind.pattern.rest? text =
      if kind.scan text = 0 then none else some (text.drop (kind.scan text)) := by
  cases text with
  | nil => cases kind <;> rfl
  | cons c rest =>
      cases kind with
      | whitespace =>
          have hscan := drop_length_takeWhile isSpace (c :: rest)
          rw [pattern, oneOf_space, rest?_atLeastOnce_one]
          by_cases hc : isSpace c = true
          · rw [scan, hscan, if_pos hc]
            simp [hc]
          · simp [scan, hc]
      | comment =>
          rw [pattern, noneOf_newline, rest?_one_seq, rest?_many_one]
          by_cases hc : c = ';'
          · subst hc
            have hscan := drop_length_takeWhile (· != '\n') rest
            simp [scan, hscan]
          · simp [scan, hc]
      | opening =>
          rw [pattern, oneOf_opening, rest?_one]
          by_cases hc : (Bracket.ofOpenGlyph? c).isSome = true <;> simp [scan, hc]
      | closing =>
          rw [pattern, oneOf_closing, rest?_one]
          by_cases hc : (Bracket.ofCloseGlyph? c).isSome = true <;> simp [scan, hc]
      | number => exact rest?_number (c :: rest)
      | string =>
          rw [pattern, rest?_one_seq, rest?_stringBody]
          by_cases hc : c = '"'
          · subst hc
            simp only [scan]
            cases hbody : scanStringBody rest with
            | none => rfl
            | some length => simp
          · simp [scan, hc]
      | identifier =>
          rw [pattern, namesBegin_eq, rest?_one_seq, rest?_many_one]
          by_cases hc : beginsIdentifier c = true
          · have hscan := drop_length_takeWhile continuesIdentifier rest
            simp [scan, hc, hscan]
            rfl
          · simp [scan, hc]

/-- The words of a number without a sign: digits, or digits around a point. -/
theorem matches_unsigned {word : List Char} (h : unsigned.Matches word) :
    (word ≠ [] ∧ ∀ c ∈ word, c.isDigit = true) ∨
      ∃ whole places, word = whole ++ '.' :: places ∧ (∀ c ∈ whole, c.isDigit = true) ∧
        (∀ c ∈ places, c.isDigit = true) ∧ ¬ (whole = [] ∧ places = []) := by
  simp only [unsigned, matches_either, matches_seq, matches_optional, matches_one,
    matches_atLeastOnce_one, matches_many_one] at h
  rcases h with ⟨whole, _, rfl, ⟨hne, hwhole⟩, point, places, rfl, hpoint, hplaces⟩ |
      ⟨_, places, rfl, ⟨c, rfl, hc⟩, hne, hplaces⟩
  · rcases hpoint with ⟨c, rfl, hc⟩ | rfl
    · obtain rfl : c = '.' := by simpa using hc
      exact .inr ⟨whole, places, rfl, hwhole, hplaces, fun h => hne h.1⟩
    · refine .inl ⟨by simp [hne], fun c hc => ?_⟩
      rcases List.mem_append.mp hc with hc | hc
      · exact hwhole c hc
      · exact hplaces c hc
  · obtain rfl : c = '.' := by simpa using hc
    exact .inr ⟨[], places, rfl, List.forall_mem_nil _, hplaces, fun h => hne h.2⟩

/-- A word of a number without a sign is scanned to its end. -/
theorem scanUnsigned_of_matches {word : List Char} (h : unsigned.Matches word) :
    scanUnsigned word = word.length ∧ ∃ c rest, word = c :: rest ∧ ¬ (c = '+' ∨ c = '-') := by
  rcases matches_unsigned h with ⟨hne, hword⟩ | ⟨whole, places, rfl, hwhole, hplaces, hne⟩
  · refine ⟨scanUnsigned_of_digits hword, ?_⟩
    obtain ⟨c, rest, rfl⟩ := List.exists_cons_of_ne_nil hne
    exact ⟨c, rest, rfl, not_sign_of_digit (hword c List.mem_cons_self)⟩
  · refine ⟨scanUnsigned_of_point hwhole hplaces hne, ?_⟩
    cases whole with
    | nil => exact ⟨'.', places, rfl, by decide⟩
    | cons c whole => exact ⟨c, _, rfl, not_sign_of_digit (hwhole c List.mem_cons_self)⟩

/-- A word of a number is scanned to its end. -/
theorem scanNumber_of_matches {word : List Char} (h : (pattern .number).Matches word) :
    scanNumber word = word.length := by
  simp only [pattern, matches_seq, matches_optional, matches_one] at h
  obtain ⟨sign, body, rfl, hsign, hbody⟩ := h
  obtain ⟨hscan, c, rest, rfl, hfirst⟩ := scanUnsigned_of_matches hbody
  rcases hsign with ⟨d, rfl, hd⟩ | rfl
  · have hd : d = '+' ∨ d = '-' := by simpa using hd
    show scanNumber (d :: c :: rest) = _
    rw [scanNumber, if_pos hd, if_neg (by rw [hscan]; exact Nat.succ_ne_zero _), hscan]
    rfl
  · rw [List.nil_append, scanNumber, if_neg hfirst, hscan]

/-- The pieces of a string literal and then the quote that closes it are scanned to the quote,
whatever follows. -/
theorem scanStringBody_of_matches {word : List Char} (h : stringBody.Matches word)
    (rest : List Char) : scanStringBody (word ++ rest) = some word.length := by
  simp only [stringBody, matches_seq, matches_one] at h
  obtain ⟨inside, _, rfl, hinside, c, rfl, hc⟩ := h
  obtain rfl : c = '"' := by simpa using hc
  generalize hp : many stringItem = p at hinside
  induction hinside with
  | none => exact scanStringBody_quote rest
  | more inner item later hitem _ _ ih =>
      cases hp
      have hlater := ih rfl
      simp only [stringItem, matches_either, matches_seq, matches_one] at hitem
      rcases hitem with ⟨_, _, rfl, ⟨c, rfl, hc⟩, d, rfl, -⟩ | ⟨c, rfl, hc⟩
      · obtain rfl : c = '\\' := by simpa using hc
        simp only [List.cons_append, List.nil_append] at hlater ⊢
        rw [scanStringBody_escape, hlater]
        rfl
      · have hne : c ≠ '"' ∧ c ≠ '\\' := by simpa using hc
        simp only [List.cons_append, List.nil_append] at hlater ⊢
        rw [scanStringBody_cons hne.2 hne.1, hlater]
        rfl
  | nothing | one | seq | left | right => cases hp

/-- A word of a class is scanned by the class to its end. -/
theorem scan_of_matches {kind : TokenClass} {word : List Char} (h : kind.pattern.Matches word) :
    kind.scan word = word.length := by
  cases kind with
  | whitespace =>
      rw [pattern, oneOf_space, matches_atLeastOnce_one] at h
      exact congrArg List.length (takeWhile_of_forall h.2)
  | comment =>
      rw [pattern, noneOf_newline, matches_seq] at h
      obtain ⟨_, later, rfl, hfirst, hlater⟩ := h
      obtain ⟨c, rfl, hc⟩ := matches_one.mp hfirst
      obtain rfl : c = ';' := by simpa using hc
      exact congrArg (·.length + 1) (takeWhile_of_forall (matches_many_one.mp hlater))
  | opening =>
      rw [pattern, oneOf_opening, matches_one] at h
      obtain ⟨c, rfl, hc⟩ := h
      exact if_pos hc
  | closing =>
      rw [pattern, oneOf_closing, matches_one] at h
      obtain ⟨c, rfl, hc⟩ := h
      exact if_pos hc
  | number => exact scanNumber_of_matches h
  | string =>
      simp only [pattern, matches_seq, matches_one] at h
      obtain ⟨_, body, rfl, ⟨c, rfl, hc⟩, hbody⟩ := h
      obtain rfl : c = '"' := by simpa using hc
      have hscan := scanStringBody_of_matches hbody []
      rw [List.append_nil] at hscan
      simp [scan, hscan]
  | identifier =>
      rw [pattern, namesBegin_eq, matches_seq] at h
      obtain ⟨_, later, rfl, hfirst, hlater⟩ := h
      obtain ⟨c, rfl, hc⟩ := matches_one.mp hfirst
      show TokenClass.scan .identifier (c :: later) = _
      rw [scan, if_pos hc]
      exact congrArg (·.length + 1) (takeWhile_of_forall (matches_many_one.mp hlater))

/-- Of all words of a class at the start of a text none is longer than what the class scans. -/
theorem length_le_scan {kind : TokenClass} {word rest : List Char}
    (h : kind.pattern.Matches word) : word.length ≤ kind.scan (word ++ rest) := by
  by_cases hle : kind.scan (word ++ rest) ≤ word.length
  · exact Nat.le_of_eq ((scan_of_append hle).trans (scan_of_matches h)).symm
  · omega

/-- What a class scans is a word of the class. -/
theorem matches_take_scan {kind : TokenClass} {text : List Char} (h : 0 < kind.scan text) :
    kind.pattern.Matches (text.take (kind.scan text)) := by
  have hrest := rest?_pattern kind text
  rw [if_neg (by omega)] at hrest
  obtain ⟨word, htext, hword⟩ := mem_remainders.mp (rest?_mem hrest)
  have hsplit := (List.take_append_drop (kind.scan text) text).trans htext
  rwa [List.append_cancel_right hsplit]

/-- A class has something at the start of a text exactly if a word of the class begins it. -/
theorem scan_pos {kind : TokenClass} {text : List Char} :
    0 < kind.scan text ↔ ∃ word, word <+: text ∧ kind.pattern.Matches word := by
  constructor
  · intro h
    exact ⟨text.take (kind.scan text), List.take_prefix _ text, matches_take_scan h⟩
  · rintro ⟨word, ⟨rest, rfl⟩, hword⟩
    have hfound : rest ∈ kind.pattern.remainders (word ++ rest) :=
      Pattern.mem_remainders.mpr ⟨word, rfl, hword⟩
    have hrest := rest?_pattern kind (word ++ rest)
    split at hrest
    · rw [List.head?_eq_none_iff.mp hrest] at hfound
      cases hfound
    · omega

/-- What a class scans lies between the words of the class at the start of a text and any bound on
their lengths. -/
theorem scan_le_of_words {kind : TokenClass} {text : List Char} {length : Nat}
    (h : ∀ word, word <+: text → kind.pattern.Matches word → word.length ≤ length) :
    kind.scan text ≤ length := by
  by_cases hpos : 0 < kind.scan text
  · have hle := h _ (List.take_prefix _ text) (matches_take_scan hpos)
    rwa [List.length_take_of_le (kind.scan_le_length text)] at hle
  · omega

end TokenClass

end QuotedLisp
