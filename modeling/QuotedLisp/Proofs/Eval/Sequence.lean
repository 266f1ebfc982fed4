import QuotedLisp.Eval.Sequence
import QuotedLisp.Proofs.Eval.Arguments
import QuotedLisp.Proofs.Text.Grapheme

/-!
# Taking strings apart

To take the first part of a string, and then the first part of what follows it, until nothing is
left, is to go through the clusters of the string: `heads_are_clusters`.
-/

namespace QuotedLisp.Builtin

/-- `Dismantles text heads` says that the first part of the string and what follows it, taken again
and again until nothing is left, give these parts in order. -/
inductive Dismantles : String → List String → Prop where
  | done : Dismantles "" []
  | step (text head tail heads) :
      first [.string text] = .ok (.string head) →
      afterFirst [.string text] = .ok (.string tail) →
      Dismantles tail heads → Dismantles text (head :: heads)

/-- The clusters of a string, as strings. -/
def clustersOf (text : String) : List String :=
  (Text.clusters text.toList).map String.ofList

/-- A string that is not empty has a first cluster, which is what is taken, and what follows it has
the other clusters. -/
theorem exists_first {text : String} (h : text ≠ "") :
    ∃ head tail, first [.string text] = .ok (.string head) ∧
      afterFirst [.string text] = .ok (.string tail) ∧
      clustersOf text = head :: clustersOf tail := by
  cases hsplit : Text.splitFirst? text.toList with
  | none =>
      cases htext : text.toList with
      | nil => exact absurd (String.toList_eq_nil_iff.mp htext) h
      | cons c rest =>
          rw [htext] at hsplit
          cases hsplit
  | some parts =>
      obtain ⟨cluster, after⟩ := parts
      refine ⟨String.ofList cluster, String.ofList after, ?_, ?_, ?_⟩
      · simp only [first, hsplit]
      · simp only [afterFirst, hsplit]
      · rw [clustersOf, Text.clusters_of_splitFirst hsplit, List.map_cons, clustersOf,
          String.toList_ofList]

/-- The clusters of a string are what it can be dismantled into. -/
theorem dismantles_clustersOf (text : String) : Dismantles text (clustersOf text) := by
  generalize hclusters : clustersOf text = heads
  induction heads generalizing text with
  | nil =>
      by_cases hempty : text = ""
      · rw [hempty]
        exact .done
      · obtain ⟨head, tail, -, -, hcons⟩ := exists_first hempty
        cases hclusters.symm.trans hcons
  | cons head heads ih =>
      have hne : text ≠ "" := by
        intro hempty
        rw [hempty] at hclusters
        cases hclusters
      obtain ⟨head', tail, hfirst, hafter, hcons⟩ := exists_first hne
      obtain ⟨rfl, hrest⟩ := List.cons.inj (hclusters.symm.trans hcons)
      exact .step text _ tail heads hfirst hafter (ih tail hrest.symm)

/-- A string can be dismantled in one way only. -/
theorem Dismantles.eq_clustersOf {text : String} {heads : List String} (h : Dismantles text heads) :
    heads = clustersOf text := by
  induction h with
  | done => rfl
  | step text head tail heads hfirst hafter _ ih =>
      have hne : text ≠ "" := by
        intro hempty
        rw [hempty] at hfirst
        cases hfirst
      obtain ⟨head', tail', hfirst', hafter', hcons⟩ := exists_first hne
      cases hfirst.symm.trans hfirst'
      cases hafter.symm.trans hafter'
      rw [hcons, ih]

/-- The clusters of a string as lists of characters. -/
theorem clustersOf_toList (text : String) :
    (clustersOf text).map String.toList = Text.clusters text.toList := by
  rw [clustersOf, List.map_map]
  exact (List.map_congr_left fun _ _ => String.toList_ofList).trans (List.map_id _)

/-- The clusters of a string, joined, are the string. -/
theorem join_clustersOf (text : String) : String.join (clustersOf text) = text := by
  rw [← String.toList_inj, String.toList_join, List.flatMap_def, clustersOf_toList]
  exact (Text.clusters_segmentation text.toList).flatten

/-- A string that is taken apart head by head comes apart into its clusters, in order and in as many
steps, as its segmentation has them when every boundary is judged with all the text before it; none
of them is empty. So the second head is the second cluster, and if there are any clusters, joining
them gives the string. -/
theorem heads_are_clusters (text : String) :
    (∀ heads, Dismantles text heads ↔ heads = clustersOf text) ∧
      Text.Segmentation text.toList ((clustersOf text).map String.toList) ∧
      (∀ head ∈ clustersOf text, head ≠ "") ∧
      (∀ one two others, clustersOf text = one :: two :: others →
        ∃ tail, afterFirst [.string text] = .ok (.string tail) ∧
          first [.string tail] = .ok (.string two)) ∧
      (text ≠ "" → concatenation ((clustersOf text).map .string) = .ok (.string text)) := by
  have hsegmentation := Text.clusters_segmentation text.toList
  rw [← clustersOf_toList] at hsegmentation
  refine ⟨fun heads => ⟨Dismantles.eq_clustersOf, ?_⟩, hsegmentation, ?_, ?_, ?_⟩
  · intro heq
    rw [heq]
    exact dismantles_clustersOf text
  · intro head hhead hempty
    refine hsegmentation.nonempty _ (List.mem_map_of_mem hhead) ?_
    rw [hempty]
    rfl
  · intro one two others hclusters
    have hdismantles := dismantles_clustersOf text
    rw [hclusters] at hdismantles
    cases hdismantles with
    | step _ _ tail _ _ hafter hrest =>
        cases hrest with
        | step _ _ _ _ hsecond => exact ⟨tail, hafter, hsecond⟩
  · intro hne
    obtain ⟨head, tail, -, -, hcons⟩ := exists_first hne
    have hjoin := join_clustersOf text
    rw [hcons] at hjoin ⊢
    have htexts : ((clustersOf tail).map Value.string).mapM (Value.expectString join.name) =
        .ok (clustersOf tail) :=
      (mapM_eq_ok (fun _ _ => Value.expectString_eq_ok) _ _).mpr rfl
    show concatenation (.string head :: (clustersOf tail).map Value.string) = _
    rw [concatenation, htexts, ← hjoin]
    rfl

/-- Three regional indicators, two pictographs with a joiner, and two consonants with a linker. -/
def looksBack : String :=
  "🇫🇷🇩👩‍👧क्ष"

/-- The string has four clusters. -/
theorem heads_are_clusters_looking_back :
    looksBack ≠ "" ∧ Dismantles looksBack ["🇫🇷", "🇩", "👩‍👧", "क्ष"] ∧
      concatenation [.string "🇫🇷", .string "🇩", .string "👩‍👧", .string "क्ष"] =
        .ok (.string looksBack) := by
  have hclusters : clustersOf looksBack = ["🇫🇷", "🇩", "👩‍👧", "क्ष"] := by decide +kernel
  have hne : looksBack ≠ "" := by decide +kernel
  obtain ⟨hdismantles, -, -, -, hjoin⟩ := heads_are_clusters looksBack
  rw [hclusters] at hdismantles hjoin
  exact ⟨hne, (hdismantles _).mpr rfl, hjoin hne⟩

end QuotedLisp.Builtin
