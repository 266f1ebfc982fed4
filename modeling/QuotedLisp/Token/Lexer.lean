import QuotedLisp.Error
import QuotedLisp.Token.Lexeme

/-!
# Cutting a text into tokens

`tokenize` takes the longest lexeme that any class has at the start of the text, of equally long
ones that of the earlier class, and goes on after it. White space and comments separate tokens and
are dropped. A character at which no class has a lexeme ends the cut with an error.
-/

namespace QuotedLisp

/-- The better of two candidates: the second only if it is longer. -/
def longerLexeme (best next : TokenClass × Nat) : TokenClass × Nat :=
  if best.2 < next.2 then next else best

/-- The class and the length of the longest lexeme at the start of a text, if any class has
one. -/
def longestLexeme? (text : List Char) : Option (TokenClass × Nat) :=
  let best := (TokenClass.all.map fun kind => (kind, kind.scan text)).foldl longerLexeme
    (.whitespace, 0)
  if best.2 = 0 then none else some best

/-- A lexeme is not empty. -/
theorem longestLexeme?_pos {text : List Char} {kind : TokenClass} {length : Nat}
    (h : longestLexeme? text = some (kind, length)) : 0 < length := by
  unfold longestLexeme? at h
  generalize List.foldl longerLexeme _ _ = best at h
  dsimp only at h
  split at h
  · cases h
  · cases h
    omega

/-- The class is one of those whose lexemes only separate tokens. -/
def TokenClass.isSeparator : TokenClass → Bool
  | .whitespace | .comment => true
  | _ => false

/-- The tokens of a text. -/
def tokenizeChars (text : List Char) : Except LexError (List Token) :=
  match text with
  | [] => .ok []
  | c :: rest =>
    match _h : longestLexeme? (c :: rest) with
    | none => .error (.unrecognizedCharacter c)
    | some (kind, length) =>
      match tokenizeChars ((c :: rest).drop length) with
      | .error e => .error e
      | .ok tokens =>
        .ok (if kind.isSeparator then tokens
          else ⟨kind, String.ofList ((c :: rest).take length)⟩ :: tokens)
termination_by text.length
decreasing_by
  have := longestLexeme?_pos _h
  simp only [List.length_drop, List.length_cons]
  omega

/-- The tokens of a source text. -/
def tokenize (source : String) : Except LexError (List Token) :=
  tokenizeChars source.toList

end QuotedLisp
