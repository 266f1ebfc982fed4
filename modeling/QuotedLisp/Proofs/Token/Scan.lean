import QuotedLisp.Token.Lexeme

/-!
# Scans and their surroundings

How the scan of a text depends on what follows the text. Runs of characters, numbers and string
literals behave alike: a scan that stays inside the beginning of a text is the same without the
rest (`…_of_append`), and it stays inside if the rest begins with a character that cannot go on
with it (`…_append_le`).
-/

namespace QuotedLisp.TokenClass

/-- A run that stays inside the beginning of a text is the same without the rest. -/
theorem takeWhile_of_append {p : Char → Bool} {text rest : List Char}
    (h : ((text ++ rest).takeWhile p).length ≤ text.length) :
    (text ++ rest).takeWhile p = text.takeWhile p := by
  rw [List.takeWhile_append] at h ⊢
  split
  · rename_i hall
    rw [if_pos hall, List.length_append] at h
    have hnil : rest.takeWhile p = [] := List.eq_nil_of_length_eq_zero (by omega)
    rw [hnil, List.append_nil]
    exact ((List.takeWhile_prefix p).eq_of_length hall).symm
  · rfl

/-- A run does not pass a character that does not belong to it. -/
theorem takeWhile_append_le {p : Char → Bool} {text rest : List Char}
    (h : ∀ c ∈ rest.head?, p c = false) :
    ((text ++ rest).takeWhile p).length ≤ text.length := by
  have hnil : rest.takeWhile p = [] := by
    cases rest with
    | nil => rfl
    | cons c rest => simp [h c rfl]
  rw [List.takeWhile_append, hnil]
  split
  · simp
  · exact (List.takeWhile_prefix p).length_le

/-- To drop a run is to drop as many characters as it has. -/
theorem drop_length_takeWhile (p : Char → Bool) (text : List Char) :
    text.drop (text.takeWhile p).length = text.dropWhile p := by
  induction text with
  | nil => rfl
  | cons c rest ih => by_cases hc : p c <;> simp_all

/-- A run of allowed characters is all of a text that has no others. -/
theorem takeWhile_of_forall {p : Char → Bool} {text : List Char} (h : ∀ c ∈ text, p c = true) :
    text.takeWhile p = text := by
  have happend := @List.takeWhile_append_of_pos _ p text [] h
  rwa [List.append_nil, List.takeWhile_nil, List.append_nil] at happend

/-- The length of a number without a sign, given the number of its leading digits and the text
after them. -/
def scanAfter (whole : Nat) : List Char → Nat
  | '.' :: rest =>
    if whole = 0 ∧ digitCount rest = 0 then 0 else whole + 1 + digitCount rest
  | _ => whole

/-- The leading digits belong to the number. -/
theorem le_scanAfter (whole : Nat) (tail : List Char) : whole ≤ scanAfter whole tail := by
  unfold scanAfter
  split
  · split <;> omega
  · exact Nat.le_refl _

/-- Before anything but a point the leading digits are the number. -/
theorem scanAfter_of_ne {whole : Nat} {c : Char} {tail : List Char} (h : c ≠ '.') :
    scanAfter whole (c :: tail) = whole := by
  unfold scanAfter
  split
  · rename_i heq
    cases heq
    exact absurd rfl h
  · rfl

/-- A number is its leading digits and what they allow to follow. -/
theorem scanUnsigned_eq (text : List Char) :
    scanUnsigned text = scanAfter (digitCount text) (text.dropWhile Char.isDigit) := by
  show scanAfter (digitCount text) (text.drop (digitCount text)) = _
  rw [digitCount, drop_length_takeWhile]

/-- If a text has nothing but digits, its leading digits go on after it. -/
theorem scanUnsigned_append_of_digits {text : List Char}
    (h : text.dropWhile Char.isDigit = []) (rest : List Char) :
    scanUnsigned (text ++ rest) =
      scanAfter (text.length + digitCount rest) (rest.dropWhile Char.isDigit) := by
  have htake : text.takeWhile Char.isDigit = text := by
    have hsplit := List.takeWhile_append_dropWhile (p := Char.isDigit) (l := text)
    rwa [h, List.append_nil] at hsplit
  rw [scanUnsigned_eq, List.dropWhile_append, h, digitCount, List.takeWhile_append, htake]
  simp [digitCount]

/-- If a text has something else after its leading digits, they are the same in a longer text. -/
theorem scanUnsigned_append_of_cons {text tail : List Char} {c : Char}
    (h : text.dropWhile Char.isDigit = c :: tail) (rest : List Char) :
    scanUnsigned (text ++ rest) = scanAfter (digitCount text) (c :: (tail ++ rest)) ∧
      text.length = digitCount text + 1 + tail.length := by
  have hsplit := List.takeWhile_append_dropWhile (p := Char.isDigit) (l := text)
  rw [h] at hsplit
  have hlength : text.length = digitCount text + 1 + tail.length := by
    have := congrArg List.length hsplit
    simp only [List.length_append, List.length_cons] at this
    simp only [digitCount]
    omega
  have hne : ¬ (text.takeWhile Char.isDigit).length = text.length := by
    simp only [digitCount] at hlength
    omega
  refine ⟨?_, hlength⟩
  rw [scanUnsigned_eq, List.dropWhile_append, h, digitCount, List.takeWhile_append, if_neg hne]
  rfl

/-- The digits after a point are those of the text, if no more are counted than it has. -/
theorem digitCount_of_append {text rest : List Char}
    (h : digitCount (text ++ rest) ≤ text.length) :
    digitCount (text ++ rest) = digitCount text :=
  congrArg List.length (takeWhile_of_append h)

/-- A number that stays inside the beginning of a text is the same without the rest. -/
theorem scanUnsigned_of_append {text rest : List Char}
    (h : scanUnsigned (text ++ rest) ≤ text.length) :
    scanUnsigned (text ++ rest) = scanUnsigned text := by
  cases htail : text.dropWhile Char.isDigit with
  | nil =>
      have halone := scanUnsigned_append_of_digits htail []
      rw [List.append_nil] at halone
      rw [scanUnsigned_append_of_digits htail] at h ⊢
      have hle := le_scanAfter (text.length + digitCount rest) (rest.dropWhile Char.isDigit)
      rw [halone]
      show _ = text.length
      omega
  | cons c tail =>
      obtain ⟨halone, hlength⟩ := scanUnsigned_append_of_cons htail []
      rw [List.append_nil, List.append_nil] at halone
      rw [(scanUnsigned_append_of_cons htail rest).1] at h ⊢
      rw [halone]
      by_cases hpoint : c = '.'
      · subst hpoint
        simp only [scanAfter] at h ⊢
        have hplaces : digitCount (tail ++ rest) = digitCount tail := by
          apply digitCount_of_append
          split at h <;> omega
        rw [hplaces]
      · rw [scanAfter_of_ne hpoint, scanAfter_of_ne hpoint]

/-- A number does not pass a character that can neither go on with its digits nor be a point. -/
theorem scanUnsigned_append_le {text rest : List Char}
    (h : ∀ c ∈ rest.head?, c.isDigit = false ∧ c ≠ '.') :
    scanUnsigned (text ++ rest) ≤ text.length := by
  cases htail : text.dropWhile Char.isDigit with
  | nil =>
      rw [scanUnsigned_append_of_digits htail]
      cases rest with
      | nil => exact Nat.le_refl _
      | cons c rest =>
          obtain ⟨hdigit, hpoint⟩ := h c rfl
          simp [digitCount, hdigit, scanAfter_of_ne hpoint]
  | cons c tail =>
      obtain ⟨happend, hlength⟩ := scanUnsigned_append_of_cons htail rest
      have hplaces : digitCount (tail ++ rest) ≤ tail.length :=
        takeWhile_append_le fun c hc => (h c hc).1
      rw [happend, hlength]
      by_cases hpoint : c = '.'
      · subst hpoint
        simp only [scanAfter]
        split <;> omega
      · rw [scanAfter_of_ne hpoint]
        omega

/-- A digit is no sign. -/
theorem not_sign_of_digit {c : Char} (h : c.isDigit = true) : ¬ (c = '+' ∨ c = '-') := by
  rintro (rfl | rfl) <;> exact absurd h (by decide)

/-- Digits are a number to their end. -/
theorem scanUnsigned_of_digits {text : List Char} (h : ∀ c ∈ text, c.isDigit = true) :
    scanUnsigned text = text.length := by
  have hdrop := drop_length_takeWhile Char.isDigit text
  rw [takeWhile_of_forall h, List.drop_length] at hdrop
  have hscan := scanUnsigned_append_of_digits hdrop.symm []
  rwa [List.append_nil] at hscan

/-- Digits around a point are a number to their end, if there are any. -/
theorem scanUnsigned_of_point {whole places : List Char} (hwhole : ∀ c ∈ whole, c.isDigit = true)
    (hplaces : ∀ c ∈ places, c.isDigit = true) (hne : ¬ (whole = [] ∧ places = [])) :
    scanUnsigned (whole ++ '.' :: places) = (whole ++ '.' :: places).length := by
  have hdrop := drop_length_takeWhile Char.isDigit whole
  rw [takeWhile_of_forall hwhole, List.drop_length] at hdrop
  have hcount : digitCount places = places.length :=
    congrArg List.length (takeWhile_of_forall hplaces)
  have hlength : ¬ (whole.length = 0 ∧ places.length = 0) := by
    simpa only [List.length_eq_zero_iff] using hne
  rw [scanUnsigned_append_of_digits hdrop.symm, List.length_append]
  show scanAfter (whole.length + 0) ('.' :: places) = _
  simp only [scanAfter, hcount, List.length_cons, Nat.add_zero]
  rw [if_neg hlength]
  omega

/-- A point alone is no number: a digit has to follow. -/
theorem scanNumber_point {rest : List Char} :
    scanNumber ('.' :: rest) = 0 ↔ ∀ d ∈ rest.head?, d.isDigit = false := by
  cases rest with
  | nil => exact ⟨nofun, fun _ => rfl⟩
  | cons d rest =>
      cases hdigit : d.isDigit <;> simp [scanNumber, scanUnsigned, digitCount, hdigit]

/-- The same for a number that may have a sign. -/
theorem scanNumber_of_append {text rest : List Char}
    (h : scanNumber (text ++ rest) ≤ text.length) :
    scanNumber (text ++ rest) = scanNumber text := by
  cases text with
  | nil => exact Nat.eq_zero_of_le_zero h
  | cons c text =>
      rw [List.cons_append] at h ⊢
      simp only [scanNumber] at h ⊢
      split
      · rename_i hsign
        rw [if_pos hsign] at h
        have hbody : scanUnsigned (text ++ rest) = scanUnsigned text := by
          apply scanUnsigned_of_append
          rw [List.length_cons] at h
          split at h <;> omega
        rw [hbody]
      · rename_i hsign
        rw [if_neg hsign] at h
        exact @scanUnsigned_of_append (c :: text) rest h

/-- The same for a number that may have a sign, unless it is the sign that would be passed. -/
theorem scanNumber_append_le {text rest : List Char} (hne : text ≠ [])
    (h : ∀ c ∈ rest.head?, c.isDigit = false ∧ c ≠ '.') :
    scanNumber (text ++ rest) ≤ text.length := by
  cases text with
  | nil => exact absurd rfl hne
  | cons c text =>
      rw [List.cons_append]
      simp only [scanNumber]
      split
      · have := @scanUnsigned_append_le text rest h
        rw [List.length_cons]
        split <;> omega
      · exact @scanUnsigned_append_le (c :: text) rest h

/-- A quote closes a literal. -/
theorem scanStringBody_quote (rest : List Char) : scanStringBody ('"' :: rest) = some 1 := by
  rw [scanStringBody] <;> simp

/-- Any character but a backslash and a quote goes on with a literal. -/
theorem scanStringBody_cons {c : Char} (hslash : c ≠ '\\') (hquote : c ≠ '"')
    (rest : List Char) : scanStringBody (c :: rest) = (scanStringBody rest).map (· + 1) := by
  rw [scanStringBody, if_neg hquote]
  · exact fun h _ => hslash h
  · exact fun _ _ h _ => hslash h

/-- A backslash goes on with a literal together with the character after it. -/
theorem scanStringBody_escape (c : Char) (rest : List Char) :
    scanStringBody ('\\' :: c :: rest) = (scanStringBody rest).map (· + 2) := by
  rw [scanStringBody]

/-- What neither ends a text as a backslash nor is one before another character is none. -/
theorem ne_backslash {c : Char} {text : List Char} (hend : c = '\\' → text = [] → False)
    (hescape : ∀ d rest, c = '\\' → text = d :: rest → False) : c ≠ '\\' := by
  intro hc
  cases text with
  | nil => exact hend hc rfl
  | cons d rest => exact hescape d rest hc rfl

/-- What is left of a literal has at least its closing quote. -/
theorem scanStringBody_pos {text : List Char} {length : Nat}
    (h : scanStringBody text = some length) : 0 < length := by
  fun_induction scanStringBody text with
  | case1 | case2 => cases h
  | case3 | case5 =>
      obtain ⟨inner, -, rfl⟩ := Option.map_eq_some_iff.mp h
      omega
  | case4 =>
      cases h
      omega

/-- What is left of a literal lies in the text. -/
theorem scanStringBody_le {text : List Char} {length : Nat}
    (h : scanStringBody text = some length) : length ≤ text.length := by
  fun_induction scanStringBody text generalizing length with
  | case1 | case2 => cases h
  | case3 c text ih | case5 c text _ _ _ ih =>
      obtain ⟨inner, hinner, rfl⟩ := Option.map_eq_some_iff.mp h
      have := ih hinner
      simp only [List.length_cons]
      omega
  | case4 =>
      cases h
      simp

/-- A string literal that is closed stays closed where it is, whatever follows. -/
theorem scanStringBody_append {text : List Char} {length : Nat}
    (h : scanStringBody text = some length) (rest : List Char) :
    scanStringBody (text ++ rest) = some length := by
  fun_induction scanStringBody text generalizing length with
  | case1 | case2 => cases h
  | case3 c text ih =>
      obtain ⟨inner, hinner, rfl⟩ := Option.map_eq_some_iff.mp h
      simp [scanStringBody, ih hinner]
  | case4 text =>
      rw [List.cons_append, scanStringBody_quote]
      exact h
  | case5 c text hend hescape hquote ih =>
      obtain ⟨inner, hinner, rfl⟩ := Option.map_eq_some_iff.mp h
      rw [List.cons_append, scanStringBody_cons (ne_backslash hend hescape) hquote, ih hinner]
      rfl

/-- A string literal that is closed inside the beginning of a text is closed there without the
rest. -/
theorem scanStringBody_of_append {text rest : List Char} {length : Nat}
    (h : scanStringBody (text ++ rest) = some length) (hlength : length ≤ text.length) :
    scanStringBody text = some length := by
  fun_induction scanStringBody text generalizing length with
  | case1 =>
      have := scanStringBody_pos h
      simp only [List.length_nil] at hlength
      omega
  | case2 =>
      cases rest with
      | nil => exact h
      | cons d rest =>
          obtain ⟨inner, hinner, rfl⟩ := Option.map_eq_some_iff.mp h
          simp only [List.length_cons, List.length_nil] at hlength
          omega
  | case3 c text ih =>
      obtain ⟨inner, hinner, rfl⟩ := Option.map_eq_some_iff.mp h
      simp only [List.length_cons] at hlength
      rw [ih hinner (by omega)]
      rfl
  | case4 text =>
      rw [List.cons_append, scanStringBody_quote] at h
      exact h
  | case5 c text hend hescape hquote ih =>
      rw [List.cons_append, scanStringBody_cons (ne_backslash hend hescape) hquote] at h
      obtain ⟨inner, hinner, rfl⟩ := Option.map_eq_some_iff.mp h
      simp only [List.length_cons] at hlength
      rw [ih hinner (by omega)]
      rfl

end QuotedLisp.TokenClass
