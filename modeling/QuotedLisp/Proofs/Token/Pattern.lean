import QuotedLisp.Token.Lexeme

/-!
# Patterns

Regular expressions over characters. `Pattern.Matches` says which words belong to a pattern.
`Pattern.remainders` searches a text for them with backtracking: it lists what may be left of the
text after a word at its start, in the order in which the search comes to it, so that the head of
the list is what is left after the preferred word. The search finds all words and nothing else,
`mem_remainders`.
-/

namespace QuotedLisp

/-- A regular expression. -/
inductive Pattern where
  | nothing
  | one (allowed : Char → Bool)
  | seq (first second : Pattern)
  | either (first second : Pattern)
  | many (inner : Pattern)

namespace Pattern

/-- The pattern or nothing, the pattern preferred. -/
def optional (p : Pattern) : Pattern :=
  either p nothing

/-- The pattern once or more, more often preferred. -/
def atLeastOnce (p : Pattern) : Pattern :=
  seq p (many p)

/-- `Matches p word` says that the word belongs to the pattern. -/
inductive Matches : Pattern → List Char → Prop where
  | nothing : Matches nothing []
  | one (allowed c) : allowed c = true → Matches (one allowed) [c]
  | seq (first second word word') :
      Matches first word → Matches second word' → Matches (seq first second) (word ++ word')
  | left (first second word) : Matches first word → Matches (either first second) word
  | right (first second word) : Matches second word → Matches (either first second) word
  | none (inner) : Matches (many inner) []
  | more (inner word word') :
      Matches inner word → Matches (many inner) word' → Matches (many inner) (word ++ word')

/-- What may be left of a text after repeated steps, after more of them first. No step is made that
takes nothing from the text, so a bound on their number may be its length. -/
def repeated (step : List Char → List (List Char)) : Nat → List Char → List (List Char)
  | 0, text => [text]
  | bound + 1, text =>
    ((step text).filter (·.length < text.length)).flatMap (repeated step bound) ++ [text]

/-- What may be left of a text after a word of the pattern, the preferred first. Of two patterns the
first is preferred, and of repetitions the longer. -/
def remainders : Pattern → List Char → List (List Char)
  | nothing => fun text => [text]
  | one allowed => fun
    | [] => []
    | c :: rest => if allowed c then [rest] else []
  | seq first second => fun text => (first.remainders text).flatMap second.remainders
  | either first second => fun text => first.remainders text ++ second.remainders text
  | many inner => fun text => repeated inner.remainders text.length text

/-- What is left of a text after the preferred word of the pattern, if there is any. -/
def rest? (p : Pattern) (text : List Char) : Option (List Char) :=
  (p.remainders text).head?

/-- A bound that is not less than the length of the text does not matter. -/
theorem repeated_bound {step : List Char → List (List Char)} {bound other : Nat}
    {text : List Char} (h : text.length ≤ bound) (h' : text.length ≤ other) :
    repeated step bound text = repeated step other text := by
  induction bound generalizing other text with
  | zero =>
      obtain rfl := List.eq_nil_of_length_eq_zero (Nat.le_zero.mp h)
      cases other <;> simp [repeated]
  | succ bound ih =>
      cases other with
      | zero =>
          obtain rfl := List.eq_nil_of_length_eq_zero (Nat.le_zero.mp h')
          simp [repeated]
      | succ other =>
          rw [repeated, repeated, List.flatMap_def, List.flatMap_def]
          congr 2
          refine List.map_congr_left fun rest hrest => ?_
          have hlt : rest.length < text.length := by simpa using (List.mem_filter.mp hrest).2
          exact ih (by omega) (by omega)

/-- A repetition takes one step and goes on, or takes none. -/
theorem remainders_many (p : Pattern) (text : List Char) :
    (many p).remainders text =
      ((p.remainders text).filter (·.length < text.length)).flatMap (many p).remainders ++
        [text] := by
  cases text with
  | nil => simp [remainders, repeated]
  | cons c text =>
      simp only [remainders, List.length_cons]
      rw [repeated, List.flatMap_def, List.flatMap_def]
      congr 2
      refine List.map_congr_left fun rest hrest => ?_
      have hlt : rest.length < (c :: text).length := by simpa using (List.mem_filter.mp hrest).2
      exact repeated_bound (Nat.le_of_lt_succ hlt) (Nat.le_refl _)

/-- A repetition is empty, or begins with a word that is not. -/
theorem Matches.many_cases {inner : Pattern} {word : List Char} (h : Matches (many inner) word) :
    word = [] ∨ ∃ first later, word = first ++ later ∧ first ≠ [] ∧ Matches inner first ∧
      Matches (many inner) later := by
  generalize hp : many inner = p at h
  induction h with
  | none => exact .inl rfl
  | more inner' word word' hword hword' _ ih =>
      cases hp
      cases word with
      | nil => exact ih rfl
      | cons c word => exact .inr ⟨c :: word, word', rfl, List.cons_ne_nil c word, hword, hword'⟩
  | nothing | one | seq | left | right => cases hp

/-- The search for repetitions finds what the search for one finds, again and again. -/
theorem mem_remainders_many {inner : Pattern}
    (hinner : ∀ {text rest : List Char}, rest ∈ inner.remainders text ↔
      ∃ word, text = word ++ rest ∧ Matches inner word) {text rest : List Char} :
    rest ∈ (many inner).remainders text ↔
      ∃ word, text = word ++ rest ∧ Matches (many inner) word := by
  rw [remainders_many, List.mem_append, List.mem_flatMap, List.mem_singleton]
  constructor
  · rintro (⟨middle, hmiddle, hrest⟩ | rfl)
    · obtain ⟨hstep, hlt⟩ := List.mem_filter.mp hmiddle
      have hshorter : middle.length < text.length := by simpa using hlt
      obtain ⟨word, htext, hword⟩ := hinner.mp hstep
      obtain ⟨later, rfl, hlater⟩ := (mem_remainders_many hinner).mp hrest
      refine ⟨word ++ later, ?_, .more inner word later hword hlater⟩
      rw [htext, List.append_assoc]
    · exact ⟨[], rfl, .none inner⟩
  · rintro ⟨word, htext, hword⟩
    rcases hword.many_cases with rfl | ⟨first, later, rfl, hne, hfirst, hlater⟩
    · exact .inr htext.symm
    · rw [List.append_assoc] at htext
      have hshorter : (later ++ rest).length < text.length := by
        have := List.length_pos_iff.mpr hne
        rw [htext]
        simp only [List.length_append]
        omega
      refine .inl ⟨later ++ rest, List.mem_filter.mpr ⟨?_, by simpa using hshorter⟩, ?_⟩
      · exact hinner.mpr ⟨first, htext, hfirst⟩
      · exact (mem_remainders_many hinner).mpr ⟨later, rfl, hlater⟩
termination_by text.length
decreasing_by all_goals exact hshorter

/-- The search finds every word of the pattern at the start of a text, and nothing else. -/
theorem mem_remainders {p : Pattern} {text rest : List Char} :
    rest ∈ p.remainders text ↔ ∃ word, text = word ++ rest ∧ Matches p word := by
  induction p generalizing text rest with
  | nothing =>
      constructor
      · intro h
        obtain rfl := List.mem_singleton.mp h
        exact ⟨[], rfl, .nothing⟩
      · rintro ⟨word, rfl, ⟨⟩⟩
        exact List.mem_singleton_self rest
  | one allowed =>
      constructor
      · intro h
        cases text with
        | nil => cases h
        | cons c text =>
            simp only [remainders] at h
            split at h
            · rename_i hc
              obtain rfl := List.mem_singleton.mp h
              exact ⟨[c], rfl, .one allowed c hc⟩
            · cases h
      · rintro ⟨word, rfl, h⟩
        cases h with
        | one _ c hc => simp [remainders, hc]
  | seq first second ihfirst ihsecond =>
      simp only [remainders, List.mem_flatMap, ihfirst, ihsecond]
      constructor
      · rintro ⟨_, ⟨word, rfl, hword⟩, word', rfl, hword'⟩
        exact ⟨word ++ word', (List.append_assoc _ _ _).symm, .seq _ _ word word' hword hword'⟩
      · rintro ⟨_, rfl, h⟩
        cases h with
        | seq _ _ word word' hword hword' =>
            exact ⟨word' ++ rest, ⟨word, List.append_assoc _ _ _, hword⟩, word', rfl, hword'⟩
  | either first second ihfirst ihsecond =>
      simp only [remainders, List.mem_append, ihfirst, ihsecond]
      constructor
      · rintro (⟨word, htext, hword⟩ | ⟨word, htext, hword⟩)
        · exact ⟨word, htext, .left _ _ word hword⟩
        · exact ⟨word, htext, .right _ _ word hword⟩
      · rintro ⟨word, htext, h⟩
        cases h with
        | left _ _ _ hword => exact .inl ⟨word, htext, hword⟩
        | right _ _ _ hword => exact .inr ⟨word, htext, hword⟩
  | many inner ih => exact mem_remainders_many ih

/-- One character is taken if it is allowed, and nothing else is left to try. -/
theorem remainders_one_cons (allowed : Char → Bool) (c : Char) (rest : List Char) :
    (one allowed).remainders (c :: rest) = if allowed c then [rest] else [] := rfl

/-- The second pattern is tried after every word of the first. -/
theorem remainders_seq (p q : Pattern) (text : List Char) :
    (seq p q).remainders text = (p.remainders text).flatMap q.remainders := rfl

/-- What is left is found by the search. -/
theorem rest?_mem {p : Pattern} {text rest : List Char} (h : p.rest? text = some rest) :
    rest ∈ p.remainders text :=
  List.mem_of_head? h

/-- One character is taken if it is allowed. -/
@[simp] theorem rest?_one (allowed : Char → Bool) (c : Char) (rest : List Char) :
    (one allowed).rest? (c :: rest) = if allowed c then some rest else none := by
  simp only [rest?, remainders]
  split <;> rfl

/-- There is no character in an empty text. -/
@[simp] theorem rest?_one_nil (allowed : Char → Bool) : (one allowed).rest? [] = none := rfl

/-- The second pattern is tried if there is no word of the first. -/
@[simp] theorem rest?_either (p q : Pattern) (text : List Char) :
    (either p q).rest? text = (p.rest? text).or (q.rest? text) :=
  List.head?_append

/-- After a pattern that may be left out something is left in any case. -/
@[simp] theorem rest?_optional (p : Pattern) (text : List Char) :
    (optional p).rest? text = (p.rest? text).or (some text) :=
  rest?_either p nothing text

/-- Of the words of the first pattern that one counts first after which there is a word of the
second. -/
theorem rest?_seq (p q : Pattern) (text : List Char) :
    (seq p q).rest? text = (p.remainders text).findSome? q.rest? :=
  List.head?_flatMap

/-- If there is always a word of the second pattern, the preferred word of the first counts. -/
theorem rest?_seq_of_isSome {q : Pattern} (h : ∀ text, (q.rest? text).isSome) (p : Pattern)
    (text : List Char) : (seq p q).rest? text = (p.rest? text).bind q.rest? := by
  rw [rest?_seq, rest?]
  cases p.remainders text with
  | nil => rfl
  | cons rest others =>
      obtain ⟨left, hleft⟩ := Option.isSome_iff_exists.mp (h rest)
      simp [hleft]

/-- A pattern that begins with one character goes on after it. -/
@[simp] theorem rest?_one_seq (allowed : Char → Bool) (q : Pattern) (c : Char)
    (rest : List Char) :
    (seq (one allowed) q).rest? (c :: rest) = if allowed c then q.rest? rest else none := by
  simp only [rest?_seq, remainders]
  split <;> simp

/-- It has no word in an empty text. -/
@[simp] theorem rest?_one_seq_nil (allowed : Char → Bool) (q : Pattern) :
    (seq (one allowed) q).rest? [] = none := rfl

/-- A repetition before another pattern: one more step if what follows then can be had, and else
none. -/
theorem rest?_many_seq (p q : Pattern) (text : List Char) :
    (seq (many p) q).rest? text =
      (((p.remainders text).filter (·.length < text.length)).findSome?
        fun rest => (seq (many p) q).rest? rest).or (q.rest? text) := by
  rw [rest?, remainders_seq, remainders_many, List.flatMap_append, List.head?_append,
    List.flatMap_assoc, List.head?_flatMap, List.flatMap_singleton]
  rfl

/-- Where one step of a repetition is possible, and only in one way, it is tried first. -/
theorem rest?_many_seq_of_step {p : Pattern} {text next : List Char}
    (h : p.remainders text = [next]) (hlt : next.length < text.length) (q : Pattern) :
    (seq (many p) q).rest? text = ((seq (many p) q).rest? next).or (q.rest? text) := by
  have hfilter : [next].filter (·.length < text.length) = [next] := by simpa using hlt
  rw [rest?_many_seq, h, hfilter, List.findSome?_singleton]

/-- Where no step of a repetition is possible it ends. -/
theorem rest?_many_seq_of_end {p : Pattern} {text : List Char} (h : p.remainders text = [])
    (q : Pattern) : (seq (many p) q).rest? text = q.rest? text := by
  rw [rest?_many_seq, h]
  rfl

/-- A repetition of single characters goes on as long as they are allowed. -/
@[simp] theorem rest?_many_one (allowed : Char → Bool) (text : List Char) :
    (many (one allowed)).rest? text = some (text.dropWhile allowed) := by
  induction text with
  | nil => rfl
  | cons c rest ih =>
      rw [rest?, remainders_many, List.head?_append, List.head?_flatMap]
      rw [rest?] at ih
      by_cases hc : allowed c = true
      · simp [remainders_one_cons, hc, ih]
      · simp [remainders_one_cons, hc]

/-- Single characters, at least one, are taken as long as they are allowed. -/
@[simp] theorem rest?_atLeastOnce_one (allowed : Char → Bool) (c : Char) (rest : List Char) :
    (atLeastOnce (one allowed)).rest? (c :: rest) =
      if allowed c then some (rest.dropWhile allowed) else none := by
  rw [atLeastOnce, rest?_one_seq, rest?_many_one]

/-- A word of one character. -/
@[simp] theorem matches_one {allowed : Char → Bool} {word : List Char} :
    Matches (one allowed) word ↔ ∃ c, word = [c] ∧ allowed c = true := by
  constructor
  · rintro ⟨⟩
    exact ⟨_, rfl, ‹_›⟩
  · rintro ⟨c, rfl, hc⟩
    exact .one allowed c hc

/-- A word of one pattern and then one of the other. -/
@[simp] theorem matches_seq {p q : Pattern} {word : List Char} :
    Matches (seq p q) word ↔
      ∃ first later, word = first ++ later ∧ Matches p first ∧ Matches q later := by
  constructor
  · rintro ⟨⟩
    exact ⟨_, _, rfl, ‹_›, ‹_›⟩
  · rintro ⟨first, later, rfl, hfirst, hlater⟩
    exact .seq p q first later hfirst hlater

/-- A word of either pattern. -/
@[simp] theorem matches_either {p q : Pattern} {word : List Char} :
    Matches (either p q) word ↔ Matches p word ∨ Matches q word := by
  constructor
  · rintro ⟨⟩
    · exact .inl ‹_›
    · exact .inr ‹_›
  · rintro (h | h)
    · exact .left p q word h
    · exact .right p q word h

/-- A word of a pattern that may be left out. -/
@[simp] theorem matches_optional {p : Pattern} {word : List Char} :
    Matches (optional p) word ↔ Matches p word ∨ word = [] := by
  rw [optional, matches_either]
  refine or_congr_right ⟨?_, ?_⟩
  · rintro ⟨⟩
    rfl
  · rintro rfl
    exact .nothing

/-- A word of allowed characters. -/
@[simp] theorem matches_many_one {allowed : Char → Bool} {word : List Char} :
    Matches (many (one allowed)) word ↔ ∀ c ∈ word, allowed c = true := by
  induction word with
  | nil => exact ⟨fun _ => nofun, fun _ => .none _⟩
  | cons c word ih =>
      rw [List.forall_mem_cons, ← ih]
      constructor
      · intro h
        rcases h.many_cases with hnil | ⟨first, later, hword, -, hfirst, hlater⟩
        · cases hnil
        · obtain ⟨c', rfl, hc⟩ := matches_one.mp hfirst
          obtain ⟨rfl, rfl⟩ := List.cons.inj hword
          exact ⟨hc, hlater⟩
      · rintro ⟨hc, hword⟩
        exact .more _ [c] word (.one allowed c hc) hword

/-- A word of at least one character, all of them allowed. -/
@[simp] theorem matches_atLeastOnce_one {allowed : Char → Bool} {word : List Char} :
    Matches (atLeastOnce (one allowed)) word ↔ word ≠ [] ∧ ∀ c ∈ word, allowed c = true := by
  rw [atLeastOnce, matches_seq]
  constructor
  · rintro ⟨first, later, rfl, hfirst, hlater⟩
    obtain ⟨c, rfl, hc⟩ := matches_one.mp hfirst
    exact ⟨List.cons_ne_nil c later, List.forall_mem_cons.mpr ⟨hc, matches_many_one.mp hlater⟩⟩
  · rintro ⟨hne, hword⟩
    obtain ⟨c, later, rfl⟩ := List.exists_cons_of_ne_nil hne
    obtain ⟨hc, hlater⟩ := List.forall_mem_cons.mp hword
    exact ⟨[c], later, rfl, .one allowed c hc, matches_many_one.mpr hlater⟩

end Pattern

end QuotedLisp
