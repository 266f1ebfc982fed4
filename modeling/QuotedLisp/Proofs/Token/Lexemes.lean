import QuotedLisp.Proofs.Token.Scan
import QuotedLisp.Token.Lexer

/-!
# The longest lexeme in its surroundings

What the longest lexeme at the start of a text depends on. The scans of the classes decide it, and
their order (`longestLexeme?_eq_some`); except for numbers and identifiers, the first character
decides the class (`TokenClass.eq_of_begins`). A scan that stays inside the beginning of a text is
the same without the rest (`TokenClass.scan_of_append`), so a lexeme that was cut out of a text is
found again on its own (`longestLexeme?_take`), and a lexeme is found again before any character
that cannot go on with it (`longestLexeme?_append`).
-/

namespace QuotedLisp

namespace Bracket

/-- Each opening glyph belongs to one bracket. -/
theorem ofOpenGlyph?_eq_some {c : Char} {b : Bracket} :
    ofOpenGlyph? c = some b ↔ c = b.openGlyph := by
  constructor
  · intro h
    unfold ofOpenGlyph? at h
    split at h
    · cases h
      assumption
    · split at h
      · cases h
        assumption
      · cases h
  · rintro rfl
    cases b <;> rfl

/-- Each closing glyph belongs to one bracket. -/
theorem ofCloseGlyph?_eq_some {c : Char} {b : Bracket} :
    ofCloseGlyph? c = some b ↔ c = b.closeGlyph := by
  constructor
  · intro h
    unfold ofCloseGlyph? at h
    split at h
    · cases h
      assumption
    · split at h
      · cases h
        assumption
      · cases h
  · rintro rfl
    cases b <;> rfl

end Bracket

namespace TokenClass

/-- The classes that win ties against a class. -/
def before (kind : TokenClass) : List TokenClass :=
  all.takeWhile (· != kind)

/-- A class comes after the classes that win ties against it. -/
theorem exists_all_eq (kind : TokenClass) : ∃ after, all = kind.before ++ kind :: after := by
  cases kind <;> exact ⟨_, rfl⟩

/-- The list of all classes has every class. -/
theorem mem_all (kind : TokenClass) : kind ∈ all := by
  cases kind <;> decide

/-- A lexeme of the class may begin with the character. -/
def begins : TokenClass → Char → Bool
  | .whitespace, c => isSpace c
  | .comment, c => c == ';'
  | .opening, c => (Bracket.ofOpenGlyph? c).isSome
  | .closing, c => (Bracket.ofCloseGlyph? c).isSome
  | .number, c => c.isDigit || c == '.' || c == '+' || c == '-'
  | .string, c => c == '"'
  | .identifier, c => beginsIdentifier c

/-- The two classes whose lexemes may begin alike. -/
def isWord : TokenClass → Bool
  | .number | .identifier => true
  | _ => false

/-- A lexeme of the class ends before the character, wherever the character stands. -/
def endsBefore : TokenClass → Char → Bool
  | .whitespace, c => !isSpace c
  | .comment, c => c == '\n'
  | .number, c | .identifier, c => !(continuesIdentifier c || c == '.')
  | _, _ => true

/-- No class has a lexeme in an empty text. -/
@[simp] theorem scan_nil (kind : TokenClass) : kind.scan [] = 0 := by
  cases kind <;> rfl

/-- A class has no lexeme where none of its lexemes begins. -/
theorem scan_of_not_begins {kind : TokenClass} {c : Char} (h : kind.begins c = false)
    (rest : List Char) : kind.scan (c :: rest) = 0 := by
  cases kind with
  | whitespace =>
      have hspace : isSpace c = false := h
      simp [scan, hspace]
  | comment =>
      have hne : c ≠ ';' := by simpa [begins] using h
      simp [scan, hne]
  | opening | closing => simp_all [scan, begins]
  | number =>
      simp only [begins, Bool.or_eq_false_iff, beq_eq_false_iff_ne] at h
      obtain ⟨⟨⟨hdigit, hpoint⟩, hplus⟩, hminus⟩ := h
      simp [scan, scanNumber, scanUnsigned, digitCount, hdigit, hpoint, hplus, hminus]
  | string =>
      have hne : c ≠ '"' := by simpa [begins] using h
      simp [scan, hne]
  | identifier =>
      have hbegins : beginsIdentifier c = false := h
      simp [scan, hbegins]

/-- The first character decides the class, unless it may begin a number or an identifier. -/
theorem eq_of_begins {first second : TokenClass} {c : Char} (hword : first.isWord = false)
    (hfirst : first.begins c = true) (hsecond : second.begins c = true) : second = first := by
  cases first with
  | whitespace =>
      simp only [begins, isSpace, Bool.or_eq_true, beq_iff_eq] at hfirst
      rcases hfirst with ((rfl | rfl) | rfl) | rfl <;> revert hsecond <;> cases second <;> decide
  | comment =>
      obtain rfl : c = ';' := by simpa [begins] using hfirst
      revert hsecond
      cases second <;> decide
  | opening =>
      obtain ⟨b, hb⟩ := Option.isSome_iff_exists.mp hfirst
      obtain rfl := Bracket.ofOpenGlyph?_eq_some.mp hb
      revert hsecond
      cases b <;> cases second <;> decide
  | closing =>
      obtain ⟨b, hb⟩ := Option.isSome_iff_exists.mp hfirst
      obtain rfl := Bracket.ofCloseGlyph?_eq_some.mp hb
      revert hsecond
      cases b <;> cases second <;> decide
  | string =>
      obtain rfl : c = '"' := by simpa [begins] using hfirst
      revert hsecond
      cases second <;> decide
  | number | identifier => cases hword

/-- A lexeme begins with a character that its class allows. -/
theorem begins_of_scan_pos {kind : TokenClass} {c : Char} {rest : List Char}
    (h : 0 < kind.scan (c :: rest)) : kind.begins c = true := by
  cases hbegins : kind.begins c with
  | true => rfl
  | false =>
      rw [scan_of_not_begins hbegins] at h
      omega

/-- A lexeme may begin with any character that one of its class may begin with, but for quotes and
points. A sign alone is a name. -/
theorem exists_scan_pos {kind : TokenClass} {c : Char} (hbegins : kind.begins c = true)
    (hquote : c ≠ '"') (hpoint : c ≠ '.') (rest : List Char) :
    ∃ other : TokenClass, 0 < other.scan (c :: rest) := by
  cases kind with
  | whitespace =>
      have hspace : isSpace c = true := hbegins
      exact ⟨.whitespace, by simp [scan, hspace]⟩
  | comment =>
      obtain rfl : c = ';' := by simpa [begins] using hbegins
      exact ⟨.comment, Nat.succ_pos _⟩
  | opening => exact ⟨.opening, Nat.lt_of_lt_of_eq Nat.zero_lt_one (if_pos hbegins).symm⟩
  | closing => exact ⟨.closing, Nat.lt_of_lt_of_eq Nat.zero_lt_one (if_pos hbegins).symm⟩
  | number =>
      simp only [begins, Bool.or_eq_true, beq_iff_eq] at hbegins
      rcases hbegins with ((hdigit | hc) | hsign) | hsign
      · have hcount : 0 < digitCount (c :: rest) := by simp [digitCount, hdigit]
        refine ⟨.number, ?_⟩
        show 0 < scanNumber (c :: rest)
        rw [scanNumber, if_neg (not_sign_of_digit hdigit), scanUnsigned_eq]
        exact Nat.lt_of_lt_of_le hcount (le_scanAfter _ _)
      · exact absurd hc hpoint
      · exact ⟨.identifier, by simp [scan, hsign, beginsIdentifier]⟩
      · exact ⟨.identifier, by simp [scan, hsign, beginsIdentifier]⟩
  | string => exact absurd (by simpa [begins] using hbegins) hquote
  | identifier =>
      have hname : beginsIdentifier c = true := hbegins
      exact ⟨.identifier, by simp [scan, hname]⟩

/-- Where a lexeme of one class begins, a class that is none of the two words has no lexeme, nor
has any other class if the first is none of them. -/
theorem scan_of_begins {kind other : TokenClass} {c : Char} (hkind : kind.begins c = true)
    (hne : other ≠ kind) (hword : kind.isWord = false ∨ other.isWord = false)
    (rest : List Char) : other.scan (c :: rest) = 0 := by
  refine scan_of_not_begins ?_ rest
  cases hother : other.begins c with
  | false => rfl
  | true =>
      rcases hword with hword | hword
      · exact absurd (eq_of_begins hword hkind hother) hne
      · exact absurd (eq_of_begins hword hother hkind).symm hne

/-- A scan that stays inside the beginning of a text is the same without the rest. -/
theorem scan_of_append {kind : TokenClass} {text rest : List Char}
    (h : kind.scan (text ++ rest) ≤ text.length) :
    kind.scan (text ++ rest) = kind.scan text := by
  cases text with
  | nil =>
      rw [scan_nil]
      exact Nat.eq_zero_of_le_zero h
  | cons c text =>
      by_cases hbegins : kind.begins c = true
      · cases kind with
        | whitespace => exact congrArg List.length (@takeWhile_of_append _ (c :: text) rest h)
        | comment =>
            obtain rfl : c = ';' := by simpa [begins] using hbegins
            exact congrArg (·.length + 1) (takeWhile_of_append (Nat.le_of_succ_le_succ h))
        -- Brackets are one character long, whatever follows them.
        | opening | closing => rfl
        | number => exact @scanNumber_of_append (c :: text) rest h
        | string =>
            obtain rfl : c = '"' := by simpa [begins] using hbegins
            simp only [List.cons_append, scan] at h ⊢
            cases hbody : scanStringBody (text ++ rest) with
            | none =>
                -- What is closed in the text alone would be closed before the rest as well.
                cases halone : scanStringBody text with
                | none => rfl
                | some length =>
                    rw [scanStringBody_append halone rest] at hbody
                    cases hbody
            | some length =>
                rw [hbody] at h
                rw [scanStringBody_of_append hbody (Nat.le_of_succ_le_succ h)]
        | identifier =>
            simp only [List.cons_append, scan, if_pos (show beginsIdentifier c = true from hbegins)]
              at h ⊢
            exact congrArg (·.length + 1) (takeWhile_of_append (Nat.le_of_succ_le_succ h))
      · have hnot : kind.begins c = false := by simpa using hbegins
        rw [List.cons_append, scan_of_not_begins hnot, scan_of_not_begins hnot]

/-- Numbers and identifiers end before the same characters. -/
theorem ends_before_of_word {kind : TokenClass} (h : kind.isWord = true) (d : Char) :
    kind.endsBefore d = !(continuesIdentifier d || d == '.') := by
  cases kind with
  | number | identifier => rfl
  | _ => cases h

/-- The classes that may begin with a character end before the same characters. -/
theorem ends_before_of_begins {first second : TokenClass} {c : Char}
    (hfirst : first.begins c = true) (hsecond : second.begins c = true) (d : Char) :
    second.endsBefore d = first.endsBefore d := by
  cases hword : first.isWord with
  | false => rw [eq_of_begins hword hfirst hsecond]
  | true =>
      cases hword' : second.isWord with
      | false => rw [eq_of_begins hword' hsecond hfirst]
      | true => rw [ends_before_of_word hword, ends_before_of_word hword']

/-- A lexeme does not pass a character before which its class ends; a string literal passes
nothing once it is closed. -/
theorem scan_append_eq {kind : TokenClass} {text rest : List Char} (hne : text ≠ [])
    (hrest : ∀ c ∈ rest.head?, kind.endsBefore c = true)
    (hclosed : kind = .string → 0 < kind.scan text) :
    kind.scan (text ++ rest) = kind.scan text := by
  obtain ⟨c, text, rfl⟩ := List.exists_cons_of_ne_nil hne
  by_cases hbegins : kind.begins c = true
  · cases kind with
    | whitespace =>
        refine scan_of_append (takeWhile_append_le fun d hd => ?_)
        simpa [endsBefore] using hrest d hd
    | comment =>
        refine scan_of_append ?_
        obtain rfl : c = ';' := by simpa [begins] using hbegins
        refine Nat.succ_le_succ (takeWhile_append_le fun d hd => ?_)
        simpa [endsBefore] using hrest d hd
    | opening | closing => rfl
    | number =>
        refine scan_of_append (scanNumber_append_le hne fun d hd => ?_)
        have := hrest d hd
        simp_all [endsBefore, continuesIdentifier]
    | string =>
        obtain rfl : c = '"' := by simpa [begins] using hbegins
        have hpos := hclosed rfl
        simp only [List.cons_append, scan] at hpos ⊢
        cases halone : scanStringBody text with
        | none => simp [halone] at hpos
        | some length => rw [scanStringBody_append halone rest]
    | identifier =>
        refine scan_of_append ?_
        simp only [List.cons_append, scan, if_pos (show beginsIdentifier c = true from hbegins)]
        refine Nat.succ_le_succ (takeWhile_append_le fun d hd => ?_)
        have := hrest d hd
        simp_all [endsBefore]
  · have hnot : kind.begins c = false := by simpa using hbegins
    rw [List.cons_append, scan_of_not_begins hnot, scan_of_not_begins hnot]

/-- A scan lies in its text. -/
theorem scan_le_length (kind : TokenClass) (text : List Char) : kind.scan text ≤ text.length := by
  cases text with
  | nil => rw [scan_nil]; exact Nat.zero_le _
  | cons c text =>
      cases kind with
      | whitespace => exact (List.takeWhile_prefix isSpace).length_le
      | comment =>
          unfold scan
          split <;> simp_all [(List.takeWhile_prefix _).length_le]
      | opening | closing =>
          simp only [scan, List.length_cons]
          split <;> omega
      | number =>
          have := @scanNumber_append_le (c :: text) [] (List.cons_ne_nil c text) (by simp)
          rwa [List.append_nil] at this
      | string =>
          by_cases hquote : c = '"'
          · subst hquote
            simp only [scan]
            cases hbody : scanStringBody text with
            | none => simp
            | some length =>
                have := scanStringBody_le hbody
                simp only [Option.map_some, Option.getD_some, List.length_cons]
                omega
          · rw [scan_of_not_begins (by simpa [begins] using hquote)]
            exact Nat.zero_le _
      | identifier =>
          have := (List.takeWhile_prefix continuesIdentifier (l := text)).length_le
          simp only [scan, List.length_cons]
          split <;> omega

end TokenClass

/-- The longest lexeme depends on the scans only. -/
theorem longestLexeme?_congr {text other : List Char}
    (h : ∀ kind : TokenClass, kind.scan text = kind.scan other) :
    longestLexeme? text = longestLexeme? other := by
  unfold longestLexeme?
  simp only [h]

/-- Candidates that are not longer do not replace the best one. -/
theorem foldl_longerLexeme_of_le {best : TokenClass × Nat} {list : List (TokenClass × Nat)}
    (h : ∀ next ∈ list, next.2 ≤ best.2) : list.foldl longerLexeme best = best := by
  induction list with
  | nil => rfl
  | cons next list ih =>
      have hle := h next (by simp)
      rw [List.foldl_cons, longerLexeme, if_neg (by omega)]
      exact ih fun other hother => h other (by simp [hother])

/-- A candidate that is longer than those before it, and not shorter than those after it, is the
best. -/
theorem foldl_longerLexeme_of_split {best kind : TokenClass × Nat}
    {before after : List (TokenClass × Nat)} (hbest : best.2 < kind.2)
    (hbefore : ∀ next ∈ before, next.2 < kind.2) (hafter : ∀ next ∈ after, next.2 ≤ kind.2) :
    (before ++ kind :: after).foldl longerLexeme best = kind := by
  induction before generalizing best with
  | nil =>
      rw [List.nil_append, List.foldl_cons, longerLexeme, if_pos hbest]
      exact foldl_longerLexeme_of_le hafter
  | cons next before ih =>
      rw [List.cons_append, List.foldl_cons]
      refine ih ?_ fun other hother => hbefore other (by simp [hother])
      unfold longerLexeme
      split
      · exact hbefore next (by simp)
      · exact hbest

/-- The best candidate is one of those compared, and none of them is longer. -/
theorem foldl_longerLexeme_spec (best : TokenClass × Nat) (list : List (TokenClass × Nat)) :
    list.foldl longerLexeme best ∈ best :: list ∧
      ∀ next ∈ best :: list, next.2 ≤ (list.foldl longerLexeme best).2 := by
  induction list generalizing best with
  | nil => simp
  | cons next list ih =>
      rw [List.foldl_cons]
      obtain ⟨hmem, hmax⟩ := ih (longerLexeme best next)
      have hbetter : (longerLexeme best next = best ∨ longerLexeme best next = next) ∧
          best.2 ≤ (longerLexeme best next).2 ∧ next.2 ≤ (longerLexeme best next).2 := by
        unfold longerLexeme
        split <;> simp <;> omega
      obtain ⟨hchoice, hbest, hnext⟩ := hbetter
      have hstep := hmax _ List.mem_cons_self
      constructor
      · rcases List.mem_cons.mp hmem with heq | hmem
        · rw [heq]
          rcases hchoice with heq | heq <;> simp [heq]
        · simp [hmem]
      · intro other hother
        simp only [List.mem_cons] at hother
        rcases hother with rfl | rfl | hother
        · omega
        · omega
        · exact hmax other (List.mem_cons_of_mem _ hother)

/-- A class wins if its lexeme is longer than those of the classes before it, and not shorter than
those of the classes after it. -/
theorem longestLexeme?_of_split {text : List Char} {kind : TokenClass}
    {before after : List TokenClass} (hall : TokenClass.all = before ++ kind :: after)
    (hpos : 0 < kind.scan text) (hbefore : ∀ other ∈ before, other.scan text < kind.scan text)
    (hafter : ∀ other ∈ after, other.scan text ≤ kind.scan text) :
    longestLexeme? text = some (kind, kind.scan text) := by
  unfold longestLexeme?
  rw [hall, List.map_append, List.map_cons,
    foldl_longerLexeme_of_split hpos (by simpa using hbefore) (by simpa using hafter)]
  exact if_neg (by omega)

/-- The winner is what its class scans, it is not empty, and no class has anything longer. -/
theorem longestLexeme?_spec {text : List Char} {kind : TokenClass} {length : Nat}
    (h : longestLexeme? text = some (kind, length)) :
    kind.scan text = length ∧ 0 < length ∧ ∀ other : TokenClass, other.scan text ≤ length := by
  have hpos := longestLexeme?_pos h
  unfold longestLexeme? at h
  obtain ⟨hmem, hmax⟩ := foldl_longerLexeme_spec (.whitespace, 0)
    (TokenClass.all.map fun kind => (kind, kind.scan text))
  generalize List.foldl longerLexeme _ _ = best at h hmem hmax
  dsimp only at h
  split at h
  · cases h
  · cases h
    refine ⟨?_, hpos, fun other => ?_⟩
    · simp only [List.mem_cons, Prod.mk.injEq, List.mem_map] at hmem
      rcases hmem with ⟨-, rfl⟩ | ⟨other, -, rfl, hlength⟩
      · omega
      · exact hlength
    · refine hmax (other, other.scan text) ?_
      exact List.mem_cons_of_mem _ (List.mem_map.mpr ⟨other, other.mem_all, rfl⟩)

/-- The winner is the first class of those with nothing shorter. -/
theorem longestLexeme?_eq_some {text : List Char} {kind : TokenClass} {length : Nat} :
    longestLexeme? text = some (kind, length) ↔
      kind.scan text = length ∧ 0 < length ∧ (∀ other : TokenClass, other.scan text ≤ length) ∧
        ∀ other ∈ kind.before, other.scan text < length := by
  constructor
  · intro h
    obtain ⟨hscan, hpos, hmax⟩ := longestLexeme?_spec h
    refine ⟨hscan, hpos, hmax, ?_⟩
    -- The first class that scans as much as the winner would win itself, so it is the winner.
    have hsome : (TokenClass.all.find? fun other => other.scan text == length).isSome :=
      List.find?_isSome.mpr ⟨kind, kind.mem_all, beq_iff_eq.mpr hscan⟩
    obtain ⟨first, hfirst⟩ := Option.isSome_iff_exists.mp hsome
    obtain ⟨heq, before, after, hall, hbefore⟩ := List.find?_eq_some_iff_append.mp hfirst
    have hlength : first.scan text = length := beq_iff_eq.mp heq
    have hshorter (other : TokenClass) (hother : other ∈ before) : other.scan text < length := by
      have hne := bne_iff_ne.mp (hbefore other hother)
      have := hmax other
      omega
    have hwins := longestLexeme?_of_split hall (hlength ▸ hpos)
      (hlength ▸ hshorter) (fun other _ => hlength ▸ hmax other)
    rw [h] at hwins
    cases hwins
    have hnot : ∀ other ∈ before, (other != kind) = true := fun other hother =>
      bne_iff_ne.mpr fun heq => by
        have := hshorter other hother
        rw [heq] at this
        omega
    have heq : kind.before = before := by
      rw [TokenClass.before, hall, List.takeWhile_append_of_pos hnot,
        List.takeWhile_cons_of_neg (by simp), List.append_nil]
    rw [heq]
    exact hshorter
  · rintro ⟨rfl, hpos, hmax, hbefore⟩
    obtain ⟨after, hall⟩ := kind.exists_all_eq
    exact longestLexeme?_of_split hall hpos hbefore fun other _ => hmax other

/-- There is no lexeme exactly where no class has anything. -/
theorem longestLexeme?_eq_none {text : List Char} :
    longestLexeme? text = none ↔ ∀ kind : TokenClass, kind.scan text = 0 := by
  constructor
  · intro h kind
    unfold longestLexeme? at h
    obtain ⟨-, hmax⟩ := foldl_longerLexeme_spec (.whitespace, 0)
      (TokenClass.all.map fun kind => (kind, kind.scan text))
    have hle := hmax (kind, kind.scan text)
      (List.mem_cons_of_mem _ (List.mem_map.mpr ⟨kind, kind.mem_all, rfl⟩))
    dsimp only at h hle
    split at h
    · omega
    · cases h
  · intro h
    cases hlongest : longestLexeme? text with
    | none => rfl
    | some best =>
        obtain ⟨kind, length⟩ := best
        obtain ⟨hscan, hpos, -⟩ := longestLexeme?_spec hlongest
        rw [h kind] at hscan
        omega

/-- A lexeme that was cut out of a text is found again on its own. -/
theorem longestLexeme?_take {text : List Char} {kind : TokenClass} {length : Nat}
    (h : longestLexeme? text = some (kind, length)) :
    length ≤ text.length ∧ longestLexeme? (text.take length) = some (kind, length) := by
  obtain ⟨hscan, -, hmax⟩ := longestLexeme?_spec h
  have hle : length ≤ text.length := hscan ▸ kind.scan_le_length text
  refine ⟨hle, ?_⟩
  rw [← h]
  refine longestLexeme?_congr fun other => ?_
  have happend := @TokenClass.scan_of_append other (text.take length) (text.drop length)
  rw [List.take_append_drop, List.length_take_of_le hle] at happend
  exact (happend (hmax other)).symm

/-- A lexeme is found again before any character that cannot go on with it. -/
theorem longestLexeme?_append {kind : TokenClass} {length : Nat} {text rest : List Char}
    (h : longestLexeme? text = some (kind, length))
    (hrest : ∀ c ∈ rest.head?, kind.endsBefore c = true) :
    longestLexeme? (text ++ rest) = some (kind, length) := by
  obtain ⟨hscan, hpos, -⟩ := longestLexeme?_spec h
  rw [← h]
  refine longestLexeme?_congr fun other => ?_
  obtain ⟨c, text, rfl⟩ : ∃ c tail, text = c :: tail := by
    refine List.exists_cons_of_ne_nil ?_
    rintro rfl
    rw [TokenClass.scan_nil] at hscan
    omega
  have hkind : kind.begins c = true := TokenClass.begins_of_scan_pos (hscan ▸ hpos)
  -- Only classes that may begin like the lexeme have anything here, and they end where it does.
  by_cases hother : other.begins c = true
  · refine TokenClass.scan_append_eq (List.cons_ne_nil c text) (fun d hd => ?_) fun hstring => ?_
    · rw [TokenClass.ends_before_of_begins hkind hother]
      exact hrest d hd
    · subst hstring
      obtain rfl := TokenClass.eq_of_begins rfl hother hkind
      omega
  · have hnot : other.begins c = false := by simpa using hother
    rw [List.cons_append, TokenClass.scan_of_not_begins hnot, TokenClass.scan_of_not_begins hnot]

/-- A text that a class scans to its end, and that none of the classes before it does, is one
lexeme. -/
theorem longestLexeme?_of_full {text : List Char} {kind : TokenClass}
    {before after : List TokenClass} (hall : TokenClass.all = before ++ kind :: after)
    (hne : text ≠ []) (hfull : kind.scan text = text.length)
    (hbefore : ∀ other ∈ before, other ≠ kind ∧ (kind.isWord = false ∨ other.isWord = false)) :
    longestLexeme? text = some (kind, text.length) := by
  obtain ⟨c, rest, rfl⟩ := List.exists_cons_of_ne_nil hne
  have hpos : 0 < kind.scan (c :: rest) := by simp [hfull]
  rw [← hfull]
  refine longestLexeme?_of_split hall hpos (fun other hother => ?_) fun other _ => ?_
  · obtain ⟨hother, hword⟩ := hbefore other hother
    rw [TokenClass.scan_of_begins (TokenClass.begins_of_scan_pos hpos) hother hword]
    exact hpos
  · rw [hfull]
    exact other.scan_le_length _

/-- A text that is scanned to its end as a number is one lexeme, for numbers come before
identifiers. -/
theorem longestLexeme?_number {text : List Char} (hne : text ≠ [])
    (hfull : TokenClass.scanNumber text = text.length) :
    longestLexeme? text = some (.number, text.length) := by
  have hall : TokenClass.all =
      [.whitespace, .comment, .opening, .closing] ++ .number :: [.string, .identifier] := rfl
  exact longestLexeme?_of_full hall hne hfull (by decide)

end QuotedLisp
