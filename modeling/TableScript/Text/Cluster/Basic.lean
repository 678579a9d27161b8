import TableScript.Text.Cluster.Class

/-!
# Clusters

What a reader takes for one character may be written with several: a letter and
its accents, the parts of a syllable, a flag, a group of pictographs.  `clusters`
cuts a text at the boundaries that Unicode gives for extended grapheme clusters;
nothing is lost (`flatten_clusters`).
-/

namespace TableScript

namespace Text

namespace Cluster

namespace Class

def isAlone : Class → Bool
  | carriageReturn | lineFeed | control => true
  | _ => false

/-- Whether two neighbours of these classes are in one cluster whatever stands
before them. -/
def joins : Class → Class → Bool
  | carriageReturn, lineFeed => true
  | carriageReturn, _ | lineFeed, _ | control, _ => false
  | _, extending | _, joiner | _, spacing => true
  | prepended, right => !right.isAlone
  | leading, leading | leading, vowel | leading, openSyllable | leading, closedSyllable => true
  | openSyllable, vowel | openSyllable, trailing | vowel, vowel | vowel, trailing => true
  | closedSyllable, trailing | trailing, trailing => true
  | _, _ => false

end Class

/-- How far the characters before a boundary go towards a group. -/
inductive Progress where
  | none
  /-- the first member of a group with what extends it -/
  | started
  /-- the same, and what joins the next member to it -/
  | ready
deriving DecidableEq, Repr

/-- What the boundary rules ask of the characters before a boundary. -/
structure Left where
  last : Class
  /-- towards pictographs behind joiners -/
  picture : Progress
  /-- towards consonants behind linkers -/
  conjunct : Progress
  /-- whether the characters end in an odd number of halves of flags -/
  unpaired : Bool
deriving DecidableEq, Repr

namespace Left

/-- Nothing before a boundary, so that one lies before the first character. -/
def start : Left := ⟨.control, .none, .none, false⟩

def pictureWith (left : Left) (c : Char) : Progress :=
  if isPictograph c then .started
  else
    match left.picture, classOf c with
    | .started, .extending => .started
    | .started, .joiner => .ready
    | _, _ => .none

/-- The progress towards linked consonants with one more character.  The zero
width non-joiner, which else extends a character, ends it. -/
def conjunctWith (left : Left) (c : Char) : Progress :=
  if isConsonant c then .started
  else if isLinker c then if left.conjunct = .none then .none else .ready
  else if classOf c = .joiner || classOf c = .extending && c.toNat != 0x200C then left.conjunct
  else .none

def followedBy (left : Left) (c : Char) : Left where
  last := classOf c
  picture := left.pictureWith c
  conjunct := left.conjunctWith c
  unpaired := classOf c = .regional && !left.unpaired

def joins (left : Left) (next : Char) : Bool :=
  left.last.joins (classOf next) ||
    left.unpaired && classOf next = .regional ||
    left.picture = .ready && isPictograph next ||
    left.conjunct = .ready && isConsonant next

end Left

/-- The rest of a cluster and the clusters behind it. -/
def clustersAfter (left : Left) : List Char → List (List Char)
  | [] => [[]]
  | c :: rest =>
      match clustersAfter (left.followedBy c) rest with
      | [] => [[c]]
      | first :: others =>
          if left.joins c then (c :: first) :: others else [] :: (c :: first) :: others

end Cluster

def clusters (text : List Char) : List (List Char) := (Cluster.clustersAfter .start text).tail

namespace Cluster

theorem clustersAfter_ne_nil (left : Left) (text : List Char) :
    clustersAfter left text ≠ [] := by
  cases text with
  | nil => simp [clustersAfter]
  | cons c rest =>
      simp only [clustersAfter]
      split
      · simp
      · split <;> simp

theorem flatten_clustersAfter (left : Left) (text : List Char) :
    (clustersAfter left text).flatten = text := by
  induction text generalizing left with
  | nil => rfl
  | cons c rest ih =>
      have below := ih (left.followedBy c)
      simp only [clustersAfter]
      split
      · next none_left => exact absurd none_left (clustersAfter_ne_nil _ _)
      · next first others cut =>
          rw [cut] at below
          split <;> simpa using below

theorem start_joins (c : Char) : Left.start.joins c = false := by
  simp [Left.start, Left.joins, Class.joins]

end Cluster

/-- The clusters of a text make up the text. -/
theorem flatten_clusters (text : List Char) : (clusters text).flatten = text := by
  have whole := Cluster.flatten_clustersAfter .start text
  cases text with
  | nil => rfl
  | cons c rest =>
      simp only [clusters, Cluster.clustersAfter, Cluster.start_joins] at whole ⊢
      split
      · next none_left => exact absurd none_left (Cluster.clustersAfter_ne_nil _ _)
      · next first others cut => simpa [cut] using whole

end Text

end TableScript
