import QuotedLisp.Proofs.Results
import QuotedLisp.Proofs.Token.Tokens

/-!
# The layout of tokens

Tokens that were cut out of one text may be written down again with anything between them that only
separates (`Separates`): the new text has the same tokens, see `tokenize_layout`. A gap adds no
token (`tokenizeChars_gap`), and no lexeme of a token goes on into one
(`TokenClass.ends_before_gap`).
-/

namespace QuotedLisp

/-- `Separates gap` says that the gap is made of white space and of comments, each with the end of
its line. -/
inductive Separates : List Char → Prop where
  | nil : Separates []
  | space (c rest) : c ∈ [' ', '\t', '\r', '\n'] → Separates rest → Separates (c :: rest)
  | comment (text rest) :
      '\n' ∉ text → Separates rest → Separates (';' :: (text ++ '\n' :: rest))

/-- `LaidOut tokens text` says that the text is made of the texts of the tokens in order, each with
a gap after it. Only the last gap may be empty. -/
inductive LaidOut : List Token → List Char → Prop where
  | nil : LaidOut [] []
  | cons (t gap tokens text) :
      Separates gap → (tokens ≠ [] → gap ≠ []) → LaidOut tokens text →
      LaidOut (t :: tokens) (t.text.toList ++ (gap ++ text))

/-- The lexeme of a token ends before a gap. -/
theorem TokenClass.ends_before_gap {kind : TokenClass} (hkind : kind.isSeparator = false)
    {gap : List Char} (h : Separates gap) (hne : gap ≠ []) (rest : List Char) :
    ∀ c ∈ (gap ++ rest).head?, kind.endsBefore c = true := by
  have hspace : ([' ', '\t', '\r', '\n'].all kind.endsBefore) = true := by
    revert hkind
    cases kind <;> decide
  have hcomment : kind.endsBefore ';' = true := by
    revert hkind
    cases kind <;> decide
  cases h with
  | nil => exact absurd rfl hne
  | space c later hc =>
      rintro _ ⟨⟩
      exact List.all_eq_true.mp hspace c hc
  | comment text later =>
      rintro _ ⟨⟩
      exact hcomment

/-- A comment is one lexeme. -/
theorem longestLexeme?_comment {text : List Char} (h : '\n' ∉ text) :
    longestLexeme? (';' :: text) = some (.comment, (';' :: text).length) := by
  have hall : TokenClass.all =
      [.whitespace] ++ .comment :: [.opening, .closing, .number, .string, .identifier] := rfl
  have hline : ∀ c ∈ text, (c != '\n') = true := by
    intro c hc
    refine bne_iff_ne.mpr ?_
    rintro rfl
    exact h hc
  refine longestLexeme?_of_full hall (List.cons_ne_nil _ _) ?_ (by decide)
  exact congrArg (·.length + 1) (TokenClass.takeWhile_of_forall hline)

/-- A gap before a text does not count. -/
theorem tokenizeChars_gap {gap : List Char} (h : Separates gap) (rest : List Char) :
    tokenizeChars (gap ++ rest) = tokenizeChars rest := by
  induction h with
  | nil => rfl
  | space c later hc _ ih =>
      have hall : [' ', '\t', '\r', '\n'].all TokenClass.isSpace = true := by decide
      have hspace := List.all_eq_true.mp hall c hc
      rw [List.cons_append, tokenizeChars_space hspace, ih]
  | comment text later hline _ ih =>
      -- The comment ends before the end of its line, which is white space.
      have hend : ∀ c ∈ ('\n' :: (later ++ rest)).head?,
          TokenClass.comment.endsBefore c = true := by
        rintro _ ⟨⟩
        rfl
      have hcut := tokenizeChars_append (longestLexeme?_comment hline) hend
      rw [tokenizeChars_space rfl, ih] at hcut
      rw [List.cons_append, List.append_assoc, List.cons_append]
      refine hcut.trans ?_
      cases tokenizeChars rest <;> rfl

/-- A token that was cut out of a text is cut off before a gap. -/
theorem tokenizeChars_token {t : Token} (h : tokenize t.text = .ok [t]) {rest : List Char}
    (hrest : ∀ c ∈ rest.head?, t.kind.endsBefore c = true) :
    tokenizeChars (t.text.toList ++ rest) = (tokenizeChars rest).map (t :: ·) := by
  obtain ⟨hkind, hlexeme⟩ := tokenize_eq_singleton.mp h
  have hadd : t.kind.addTo t.text.toList = (t :: ·) := by
    funext tokens
    simp [TokenClass.addTo, hkind]
  rw [tokenizeChars_append hlexeme hrest, hadd]

/-- Tokens are found again wherever they are laid out, if each is the only token of its own text. -/
theorem LaidOut.tokenizeChars {tokens : List Token} {text : List Char} (h : LaidOut tokens text)
    (htokens : ∀ t ∈ tokens, tokenize t.text = .ok [t]) :
    QuotedLisp.tokenizeChars text = .ok tokens := by
  induction h with
  | nil => exact tokenizeChars_nil
  | cons t gap tokens text hgap hne hlater ih =>
      obtain ⟨ht, hrest⟩ := List.forall_mem_cons.mp htokens
      have hends : ∀ c ∈ (gap ++ text).head?, t.kind.endsBefore c = true := by
        by_cases hempty : gap = []
        · -- Nothing comes after an empty gap.
          obtain rfl : tokens = [] := Classical.byContradiction fun hsome => hne hsome hempty
          cases hlater
          subst hempty
          exact nofun
        · exact TokenClass.ends_before_gap (tokenize_eq_singleton.mp ht).1 hgap hempty text
      rw [tokenizeChars_token ht hends, tokenizeChars_gap hgap, ih hrest]
      rfl

/-- Texts of tokens with single spaces between them are laid out. -/
theorem laidOut_spaces (tokens : List Token) :
    LaidOut tokens ([' '].intercalate (tokens.map fun t => t.text.toList)) := by
  have hspace : Separates [' '] := .space ' ' [] (by decide) .nil
  induction tokens with
  | nil => exact .nil
  | cons t tokens ih =>
      cases tokens with
      | nil => simpa using LaidOut.cons t [] [] [] .nil nofun .nil
      | cons other tokens =>
          exact .cons t [' '] _ _ hspace (fun _ => List.cons_ne_nil _ _) ih

/-- Tokens do not depend on what stands between them. If a text has certain tokens, then so has
every text in which these are laid out in the same order, with any gaps and after any margin, and in
particular the text that has a single space between each two of them. -/
theorem tokenize_layout {source : String} {tokens : List Token}
    (h : tokenize source = .ok tokens) :
    (∀ margin text, Separates margin → LaidOut tokens text →
      tokenize (String.ofList (margin ++ text)) = .ok tokens) ∧
    tokenize (" ".intercalate (tokens.map Token.text)) = .ok tokens := by
  have htokens : ∀ t ∈ tokens, tokenize t.text = .ok [t] := fun t ht => tokenize_token h ht
  constructor
  · intro margin text hmargin htext
    rw [tokenize, String.toList_ofList, tokenizeChars_gap hmargin]
    exact htext.tokenizeChars htokens
  · have hspaces := laidOut_spaces tokens
    rw [tokenize, String.toList_intercalate, List.map_map]
    exact hspaces.tokenizeChars htokens

/-- The tokens of a text that has nothing between them. -/
def crowded : List Token :=
  [⟨.number, "1"⟩, ⟨.number, "-2"⟩, ⟨.string, "\"a ;b\""⟩, ⟨.number, "1.2"⟩, ⟨.number, ".3"⟩]

/-- Numbers and a string that were written without gaps stay apart with a comment, a tab, a space or
the end of a line between them. -/
theorem tokenize_layout_crowded :
    tokenize "1-2\"a ;b\"1.2.3" = .ok crowded ∧
      tokenize "; x\n1;y\n-2\t\"a ;b\" 1.2\r\n.3" = .ok crowded ∧
      tokenize "1 -2 \"a ;b\" 1.2 .3" = .ok crowded := by
  have htokens : tokenize "1-2\"a ;b\"1.2.3" = .ok crowded := by decide +kernel
  obtain ⟨hlayout, hspaces⟩ := tokenize_layout htokens
  have hmargin : Separates [';', ' ', 'x', '\n'] := .comment [' ', 'x'] [] (by decide) .nil
  have hcomment : Separates [';', 'y', '\n'] := .comment ['y'] [] (by decide) .nil
  have htab : Separates ['\t'] := .space '\t' [] (by decide) .nil
  have hspace : Separates [' '] := .space ' ' [] (by decide) .nil
  have hend : Separates ['\n'] := .space '\n' [] (by decide) .nil
  have hline : Separates ['\r', '\n'] := .space '\r' _ (by decide) hend
  have htext : LaidOut crowded _ :=
    .cons _ _ _ _ hcomment nofun <| .cons _ _ _ _ htab nofun <| .cons _ _ _ _ hspace nofun <|
      .cons _ _ _ _ hline nofun <| .cons _ [] _ _ .nil nofun .nil
  have hlaid := hlayout _ _ hmargin htext
  have hspaced : "1 -2 \"a ;b\" 1.2 .3" = " ".intercalate (crowded.map Token.text) := by
    decide +kernel
  rw [hspaced]
  exact ⟨htokens, (congrArg tokenize (by decide +kernel)).trans hlaid, hspaces⟩

end QuotedLisp
