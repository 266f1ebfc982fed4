import QuotedLisp.Text.Quoted

/-!
# String literals read back

Writing puts a backslash exactly before what reading could not take plainly, `encodeChar_cases`,
and so a literal denotes the string that it was written for, `decode_encode`.
-/

namespace QuotedLisp.Text.Quoted

/-- A character is escaped by a letter that reading undoes, or it stands for itself and is no
quote and no backslash. -/
theorem encodeChar_cases (c : Char) :
    (∃ letter, encodeChar c = ['\\', letter] ∧ unescapeLetter? letter = some c) ∨
      (encodeChar c = [c] ∧ c ≠ '\\' ∧ c ≠ '"') := by
  unfold encodeChar
  fun_cases escapeLetter? c with
  | case1 | case2 | case3 | case4 | case5 | case6 => exact .inl ⟨_, rfl, rfl⟩
  | case7 _ _ _ _ _ hslash hquote => exact .inr ⟨rfl, hslash, hquote⟩

/-- Any character but a backslash denotes itself. -/
theorem decodeBody_cons {c : Char} (h : c ≠ '\\') (rest : List Char) :
    decodeBody (c :: rest) = (decodeBody rest).map (c :: ·) := by
  rw [decodeBody]
  · exact fun hc _ => h hc
  · exact fun _ _ hc _ => h hc

/-- The inside of a literal denotes the string that it was written for. -/
theorem decodeBody_encode (s : List Char) : decodeBody (s.flatMap encodeChar) = .ok s := by
  induction s with
  | nil => rfl
  | cons c s ih =>
      rw [List.flatMap_cons]
      rcases encodeChar_cases c with ⟨letter, hcode, hletter⟩ | ⟨hcode, hslash, -⟩
      · rw [hcode]
        show decodeBody ('\\' :: letter :: s.flatMap encodeChar) = _
        rw [decodeBody, hletter, ih]
        rfl
      · rw [hcode, List.singleton_append, decodeBody_cons hslash, ih]
        rfl

/-- A literal denotes the string that it was written for. -/
theorem decode_encode (s : List Char) : decode (encode s) = .ok s := by
  have hbody : body? (encode s) = some (s.flatMap encodeChar) := by
    simp [encode, body?]
  rw [decode, hbody]
  exact decodeBody_encode s

end QuotedLisp.Text.Quoted
