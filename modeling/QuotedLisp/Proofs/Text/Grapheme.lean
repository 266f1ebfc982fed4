import QuotedLisp.Proofs.Text.BreakProperty
import QuotedLisp.Proofs.Token.Scan

/-!
# Cutting off clusters

A text that is cut at a boundary has the same boundaries after the cut as before, although they are
judged without what was cut off: `isBoundary_append`. The rules that look back do so over a run of
characters, and if the run comes to the cut, what stands behind it cannot be what the rule looks for;
the regional indicators behind it are paired off already. So the clusters of a text are its first
cluster and the clusters of the text after it, `clusters_of_splitFirst`. They are the text cut at all
its boundaries, `clusters_segmentation`.
-/

namespace QuotedLisp.Text

/-- The text to the left, reversed, is empty or ends at a boundary before the character. -/
def CutBefore (left : List Char) (next : Char) : Prop :=
  ∀ previous earlier, left = previous :: earlier → isBoundary earlier previous next = true

/-- Only a separator is cut from a character that would extend its cluster. -/
theorem separator_of_boundary {left : List Char} {previous next : Char}
    (h : isBoundary left previous next = true)
    (hnext : (BreakClass.of next).extendsLeft = true) :
    (BreakClass.of previous).isSeparator = true := by
  cases hprevious : (BreakClass.of previous).isSeparator with
  | true => rfl
  | false =>
      simp only [isBoundary, hprevious, hnext, BreakClass.not_separator hnext, Bool.or_true,
        Bool.true_or, Bool.or_self, Bool.false_eq_true, if_true, if_false, ite_self] at h

/-- A regional indicator is cut from another only after an even number of them. -/
theorem even_of_boundary {left : List Char} {previous next : Char}
    (h : isBoundary left previous next = true)
    (hprevious : BreakClass.of previous = .regionalIndicator)
    (hnext : BreakClass.of next = .regionalIndicator) :
    endsInOpenFlag (previous :: left) = false := by
  simp only [isBoundary, hprevious, hnext] at h
  rw [if_neg (by decide), if_neg (by decide), if_neg (by decide)] at h
  split at h
  · cases h
  · split at h
    · cases h
    · simpa using h

variable {inner outer : List Char} {first : Char}

/-- What a rule finds by looking back over a run of characters it finds in front of a cut as well: if
the run comes to the cut, a separator stands behind it, which neither belongs to the run nor is what
the rule looks for. -/
theorem run_append {p q : Char → Bool}
    (hp : ∀ c, p c = true → (BreakClass.of c).isSeparator = false)
    (hq : ∀ c, (BreakClass.of c).isSeparator = true → q c = false)
    (hcut : (∀ c ∈ inner, p c = true) → ∀ previous earlier, outer = previous :: earlier →
      (BreakClass.of previous).isSeparator = true) :
    (inner ++ outer).takeWhile p = inner.takeWhile p ∧
      ((inner ++ outer).dropWhile p).head?.any q = (inner.dropWhile p).head?.any q := by
  induction inner with
  | nil =>
      cases outer with
      | nil => exact ⟨rfl, rfl⟩
      | cons previous earlier =>
          have hseparator := hcut nofun previous earlier rfl
          have hrun : p previous = false := by
            cases hrun : p previous with
            | false => rfl
            | true => exact absurd hseparator (by simp [hp previous hrun])
          simp [hrun, hq previous hseparator]
  | cons c inner ih =>
      cases hc : p c with
      | false => simp [hc]
      | true =>
          obtain ⟨htake, hdrop⟩ := ih fun hall =>
            hcut (List.forall_mem_cons.mpr ⟨hc, hall⟩)
          simp [hc, htake, hdrop]

/-- Where the text after a cut begins with a character that would extend a cluster, the cut is at a
separator. -/
theorem CutBefore.separator (h : CutBefore outer first)
    (hfirst : (BreakClass.of first).extendsLeft = true) (previous : Char) (earlier : List Char)
    (houter : outer = previous :: earlier) : (BreakClass.of previous).isSeparator = true :=
  separator_of_boundary (h previous earlier houter) hfirst

/-- A linked consonant is found in front of a cut. -/
theorem endsInLinkedConsonant_append (hfirst : inner.getLast? = some first)
    (hcut : CutBefore outer first) :
    endsInLinkedConsonant (inner ++ outer) = endsInLinkedConsonant inner := by
  obtain ⟨htake, hdrop⟩ := run_append (p := fun c => isConjunctLinker c || isConjunctExtend c)
    (fun c hc => BreakClass.not_separator (extends_of_conjunct hc))
    (fun c hc => not_consonant_of_separator hc)
    (fun hall => hcut.separator (extends_of_conjunct (hall first (List.mem_of_getLast? hfirst))))
  simp only [endsInLinkedConsonant, htake, hdrop]

/-- A pictograph before a joiner is found in front of a cut. -/
theorem endsInPictographJoiner_append (hfirst : inner.getLast? = some first)
    (hcut : CutBefore outer first) :
    endsInPictographJoiner (inner ++ outer) = endsInPictographJoiner inner := by
  cases inner with
  | nil => cases hfirst
  | cons c inner =>
      cases hjoiner : BreakClass.of c == .joiner with
      | false => simp [endsInPictographJoiner, hjoiner]
      | true =>
          have hbehind : (∀ d ∈ inner, (BreakClass.of d == .extend) = true) →
              ∀ previous earlier, outer = previous :: earlier →
                (BreakClass.of previous).isSeparator = true := by
            intro hall
            refine hcut.separator ?_
            rcases List.mem_cons.mp (List.mem_of_getLast? hfirst) with rfl | hmem
            · rw [eq_of_beq hjoiner]
              rfl
            · rw [eq_of_beq (hall first hmem)]
              rfl
          obtain ⟨-, hdrop⟩ := run_append (q := isPictograph)
            (fun d hd => by rw [eq_of_beq hd]; rfl)
            (fun d hd => not_pictograph_of_separator hd) hbehind
          simp only [endsInPictographJoiner, List.cons_append, hdrop]

/-- Regional indicators are paired in front of a cut as they are from further to the left. -/
theorem endsInOpenFlag_append (hfirst : inner.getLast? = some first)
    (hcut : CutBefore outer first) :
    endsInOpenFlag (inner ++ outer) = endsInOpenFlag inner := by
  by_cases hall : ∀ c ∈ inner, (BreakClass.of c == .regionalIndicator) = true
  · have hinner : endsInOpenFlag inner = (inner.length % 2 == 1) := by
      rw [endsInOpenFlag, TokenClass.takeWhile_of_forall hall]
    have hboth : endsInOpenFlag (inner ++ outer) =
        ((inner.length + (outer.takeWhile fun c => BreakClass.of c == .regionalIndicator).length)
          % 2 == 1) := by
      rw [endsInOpenFlag, List.takeWhile_append_of_pos hall, List.length_append]
    -- The indicators behind the cut, if there are any, are an even number.
    have heven : (outer.takeWhile fun c => BreakClass.of c == .regionalIndicator).length % 2 = 0 := by
      cases outer with
      | nil => rfl
      | cons previous earlier =>
          cases hprevious : BreakClass.of previous == .regionalIndicator with
          | false => simp [hprevious]
          | true =>
              have hflag := even_of_boundary (hcut previous earlier rfl) (eq_of_beq hprevious)
                (eq_of_beq (hall first (List.mem_of_getLast? hfirst)))
              simp only [endsInOpenFlag, beq_eq_false_iff_ne, ne_eq] at hflag
              omega
    rw [hinner, hboth, Nat.add_mod, heven, Nat.add_zero, Nat.mod_mod]
  · obtain ⟨htake, -⟩ := @run_append inner outer (fun c => BreakClass.of c == .regionalIndicator)
      (fun _ => false) (fun c hc => by rw [eq_of_beq hc]; rfl) (fun _ _ => rfl)
      fun h => absurd h hall
    rw [endsInOpenFlag, htake, endsInOpenFlag]

/-- After a cut the boundaries do not depend on the text before it. -/
theorem isBoundary_append {left : List Char} {previous : Char}
    (hfirst : (previous :: left).getLast? = some first) (hcut : CutBefore outer first)
    (next : Char) : isBoundary (left ++ outer) previous next = isBoundary left previous next := by
  unfold isBoundary
  rw [← List.cons_append, endsInLinkedConsonant_append hfirst hcut,
    endsInPictographJoiner_append hfirst hcut, endsInOpenFlag_append hfirst hcut]

/-- After a cut the clusters do not depend on the text before it. -/
theorem clustersFrom_append {left : List Char} {previous : Char}
    (hfirst : (previous :: left).getLast? = some first) (hcut : CutBefore outer first)
    (text : List Char) :
    clustersFrom (left ++ outer) previous text = clustersFrom left previous text := by
  induction text generalizing left previous with
  | nil => rfl
  | cons next rest ih =>
      have hnext := @ih (previous :: left) next (by rwa [List.getLast?_cons_cons])
      rw [List.cons_append] at hnext
      simp only [clustersFrom, hnext, isBoundary_append hfirst hcut]

/-- What is left of the cluster that was begun, and the clusters of the text after it. -/
theorem clustersFrom_eq (left : List Char) (previous : Char) (text : List Char) :
    clustersFrom left previous text =
      ((splitCluster left previous text).1, clusters (splitCluster left previous text).2) := by
  induction text generalizing left previous with
  | nil => rfl
  | cons next rest ih =>
      cases hboundary : isBoundary left previous next with
      | false =>
          simp only [clustersFrom, splitCluster, hboundary, ih]
          rfl
      | true =>
          have hcut : CutBefore (previous :: left) next := by
            intro _ _ heq
            cases heq
            exact hboundary
          have hfresh := @clustersFrom_append (previous :: left) next [] next rfl hcut rest
          rw [List.nil_append] at hfresh
          simp only [clustersFrom, splitCluster, hboundary, hfresh, clusters]
          rfl

/-- The clusters of a text are the first one and those of the text after it. -/
theorem clusters_of_splitFirst {text cluster after : List Char}
    (h : splitFirst? text = some (cluster, after)) :
    clusters text = cluster :: clusters after := by
  cases text with
  | nil => cases h
  | cons c rest =>
      obtain ⟨rfl, rfl⟩ := Prod.mk.inj (Option.some.inj h)
      rw [clusters, clustersFrom_eq]

/-- `Segmentation text parts` says that the parts are the text cut at its boundaries and nowhere
else: one part ends between two characters exactly if a boundary lies there, judged with all the
text before it. -/
structure Segmentation (text : List Char) (parts : List (List Char)) : Prop where
  flatten : parts.flatten = text
  nonempty : ∀ part ∈ parts, part ≠ []
  cuts : ∀ before previous next after, text = before ++ previous :: next :: after →
    (isBoundary before.reverse previous next = true ↔
      ∃ earlier later, parts = earlier ++ later ∧ earlier.flatten = before ++ [previous])

/-- With text to the left this is a boundary. -/
theorem cutBefore_cons {earlier : List Char} {previous next : Char} :
    CutBefore (previous :: earlier) next ↔ isBoundary earlier previous next = true := by
  constructor
  · intro h
    exact h previous earlier rfl
  · intro h _ _ heq
    cases heq
    exact h

/-- What is left of the cluster that was begun and the clusters after it are the text. -/
theorem clustersFrom_flatten (left : List Char) (previous : Char) (text : List Char) :
    (clustersFrom left previous text).1 ++ (clustersFrom left previous text).2.flatten = text := by
  induction text generalizing left previous with
  | nil => rfl
  | cons next rest ih =>
      have hrest := ih (previous :: left) next
      simp only [clustersFrom]
      split
      · simpa using hrest
      · simpa using hrest

/-- No cluster is empty. -/
theorem clustersFrom_nonempty (left : List Char) (previous : Char) (text : List Char) :
    ∀ part ∈ (clustersFrom left previous text).2, part ≠ [] := by
  induction text generalizing left previous with
  | nil => nofun
  | cons next rest ih =>
      have hrest := ih (previous :: left) next
      simp only [clustersFrom]
      split
      · exact List.forall_mem_cons.mpr ⟨List.cons_ne_nil _ _, hrest⟩
      · exact hrest

/-- Parts that begin the text together end where parts after the first do. -/
theorem exists_earlier_cons {c : Char} {cluster before : List Char} {parts : List (List Char)} :
    (∃ earlier later, (c :: cluster) :: parts = earlier ++ later ∧
        earlier.flatten = c :: before) ↔
      ∃ earlier later, parts = earlier ++ later ∧ cluster ++ earlier.flatten = before := by
  constructor
  · intro h
    obtain ⟨earlier, later, hparts, hbefore⟩ := h
    cases earlier with
    | nil => cases hbefore
    | cons first earlier =>
        obtain ⟨rfl, hrest⟩ := List.cons.inj hparts
        exact ⟨earlier, later, hrest, (List.cons.inj hbefore).2⟩
  · intro h
    obtain ⟨earlier, later, rfl, rfl⟩ := h
    exact ⟨(c :: cluster) :: earlier, later, rfl, rfl⟩

/-- A cluster begins where a boundary lies. -/
theorem clustersFrom_cuts (left : List Char) (previous : Char) {text before : List Char}
    {next : Char} {after : List Char} (htext : text = before ++ next :: after) :
    CutBefore (before.reverse ++ previous :: left) next ↔
      ∃ earlier later, (clustersFrom left previous text).2 = earlier ++ later ∧
        (clustersFrom left previous text).1 ++ earlier.flatten = before := by
  induction text generalizing left previous before with
  | nil => simp at htext
  | cons c rest ih =>
      cases before with
      | nil =>
          obtain ⟨rfl, rfl⟩ := List.cons.inj htext
          rw [List.reverse_nil, List.nil_append, cutBefore_cons]
          cases hboundary : isBoundary left previous c with
          | false => simp [clustersFrom, hboundary]
          | true =>
              simp only [clustersFrom, hboundary, if_true, true_iff]
              exact ⟨[], _, rfl, rfl⟩
      | cons d before =>
          obtain ⟨rfl, hrest⟩ := List.cons.inj htext
          have hcuts := ih (previous :: left) c hrest
          rw [List.reverse_cons, List.append_assoc, List.singleton_append, hcuts]
          cases hboundary : isBoundary left previous c with
          | false => simp [clustersFrom, hboundary]
          | true =>
              simp only [clustersFrom, hboundary, if_true, List.nil_append]
              exact exists_earlier_cons.symm

/-- The clusters of a text are its segmentation. -/
theorem clusters_segmentation (text : List Char) : Segmentation text (clusters text) := by
  cases text with
  | nil => exact ⟨rfl, nofun, by simp⟩
  | cons c rest =>
      refine ⟨congrArg (c :: ·) (clustersFrom_flatten [] c rest),
        List.forall_mem_cons.mpr ⟨List.cons_ne_nil _ _, clustersFrom_nonempty [] c rest⟩, ?_⟩
      intro before previous next after htext
      obtain ⟨inside, hinside⟩ : ∃ inside, before ++ [previous] = c :: inside := by
        cases before with
        | nil =>
            obtain ⟨rfl, -⟩ := List.cons.inj htext
            exact ⟨[], rfl⟩
        | cons d before =>
            obtain ⟨rfl, -⟩ := List.cons.inj htext
            exact ⟨before ++ [previous], rfl⟩
      have hrest : rest = inside ++ next :: after := by
        have hboth : c :: rest = (before ++ [previous]) ++ next :: after := by simpa using htext
        rw [hinside] at hboth
        exact (List.cons.inj hboth).2
      have hreverse : previous :: before.reverse = inside.reverse ++ [c] := by
        simpa using congrArg List.reverse hinside
      rw [← cutBefore_cons, hreverse, clustersFrom_cuts [] c hrest, hinside]
      exact exists_earlier_cons.symm

end QuotedLisp.Text
