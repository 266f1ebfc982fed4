import QuotedLisp.Text.BreakProperty

/-!
# Extended grapheme clusters

Boundaries between user-perceived characters by the rules of UAX #29. Whether a boundary lies
between two characters depends on them and on the text to their left, which `isBoundary` takes
reversed, nearest character first. `splitFirst` takes the first cluster off a text and `clusters`
cuts a whole text at its boundaries.
-/

namespace QuotedLisp.Text

/-- The text to the left ends in a pictograph, extending characters and a joiner. -/
def endsInPictographJoiner : List Char → Bool
  | c :: left =>
    BreakClass.of c == .joiner &&
      ((left.dropWhile fun d => BreakClass.of d == .extend).head?.any isPictograph)
  | [] => false

/-- The text to the left ends in a consonant followed by a run of linkers and extending characters
that holds a linker. -/
def endsInLinkedConsonant (left : List Char) : Bool :=
  let inRun (c : Char) : Bool := isConjunctLinker c || isConjunctExtend c
  (left.takeWhile inRun).any isConjunctLinker &&
    ((left.dropWhile inRun).head?.any isConjunctConsonant)

/-- The text to the left ends in an odd number of regional indicators. -/
def endsInOpenFlag (left : List Char) : Bool :=
  (left.takeWhile fun c => BreakClass.of c == .regionalIndicator).length % 2 == 1

/-- One of the classes that end a line or control its layout. -/
def BreakClass.isSeparator : BreakClass → Bool
  | .carriageReturn | .lineFeed | .control => true
  | _ => false

/-- Two parts of one Hangul syllable. -/
def BreakClass.joinsSyllable : BreakClass → BreakClass → Bool
  | .leadingJamo, .leadingJamo => true
  | .leadingJamo, .vowelJamo => true
  | .leadingJamo, .openSyllable => true
  | .leadingJamo, .closedSyllable => true
  | .openSyllable, .vowelJamo => true
  | .openSyllable, .trailingJamo => true
  | .vowelJamo, .vowelJamo => true
  | .vowelJamo, .trailingJamo => true
  | .closedSyllable, .trailingJamo => true
  | .trailingJamo, .trailingJamo => true
  | _, _ => false

/-- One of the classes that never begin a cluster of their own. -/
def BreakClass.extendsLeft : BreakClass → Bool
  | .extend | .joiner | .spacingMark => true
  | _ => false

/-- A cluster boundary lies before `next`, where `previous :: left` is the reversed text before
it. The first rule that applies decides: CR LF stays together, every other separator stands
alone, syllables and marks stay together, as do conjuncts, joined pictographs and the two halves
of a flag, and everything else is cut. -/
def isBoundary (left : List Char) (previous next : Char) : Bool :=
  let before := BreakClass.of previous
  let after := BreakClass.of next
  if before = .carriageReturn ∧ after = .lineFeed then false
  else if before.isSeparator || after.isSeparator then true
  else if before.joinsSyllable after || after.extendsLeft || before == .leadingPart then false
  else if isConjunctConsonant next && endsInLinkedConsonant (previous :: left) then false
  else if isPictograph next && endsInPictographJoiner (previous :: left) then false
  else if before = .regionalIndicator ∧ after = .regionalIndicator then
    !endsInOpenFlag (previous :: left)
  else true

/-- The rest of the cluster that `previous :: left`, reversed, has begun, and the text after
it. -/
def splitCluster (left : List Char) (previous : Char) : List Char → List Char × List Char
  | [] => ([], [])
  | next :: rest =>
    if isBoundary left previous next then ([], next :: rest)
    else
      let (cluster, after) := splitCluster (previous :: left) next rest
      (next :: cluster, after)

/-- The first cluster of a text that is not empty, and the text after it. -/
def splitFirst? : List Char → Option (List Char × List Char)
  | [] => none
  | c :: rest =>
    let (cluster, after) := splitCluster [] c rest
    some (c :: cluster, after)

/-- The clusters of the text from `next` on, where `left` is the reversed text before it; what
comes first belongs to the cluster of the character before `next` if no boundary lies there. -/
def clustersFrom (left : List Char) (previous : Char) : List Char → List Char × List (List Char)
  | [] => ([], [])
  | next :: rest =>
    let (cluster, later) := clustersFrom (previous :: left) next rest
    if isBoundary left previous next then ([], (next :: cluster) :: later)
    else (next :: cluster, later)

/-- The whole text cut at its boundaries, each judged with all the text to its left. -/
def clusters : List Char → List (List Char)
  | [] => []
  | c :: rest =>
    let (cluster, later) := clustersFrom [] c rest
    (c :: cluster) :: later

end QuotedLisp.Text
