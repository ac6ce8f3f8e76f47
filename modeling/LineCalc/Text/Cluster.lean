import LineCalc.Text.Joining
import LineCalc.Text.Quoted

/-! Clusters: the pieces of a text that a reader sees as one character, by the rules for extended
    grapheme clusters. A break stands between any two characters that no rule keeps together. -/
namespace LineCalc.Text

inductive Joint
  | carriageReturn
  | lineFeed
  | control
  | extend
  | joiner
  | spacing
  | prepend
  | regional
  | pictograph
  | leading
  | vowel
  | trailing
  | openSyllable
  | closedSyllable
  | other
  deriving DecidableEq, Repr

def isWithin (low high : Nat) (c : Char) : Bool := low ≤ c.toNat && c.toNat ≤ high

def isVowelOrTrailing (c : Char) : Bool :=
  isWithin 0x1160 0x11FF c || isWithin 0xD7B0 0xD7C6 c || isWithin 0xD7CB 0xD7FB c

def joint (c : Char) : Joint :=
  if ' ' ≤ c ∧ c ≤ '~' then .other
  else if c = '\r' then .carriageReturn
  else if c = '\n' then .lineFeed
  else if c = '\u200d' then .joiner
  else if inRanges controlRanges c then .control
  else if isExtending c || isWithin 0x1F3FB 0x1F3FF c then .extend
  else if isWithin 0x1F1E6 0x1F1FF c then .regional
  else if isWithin 0x1100 0x115F c || isWithin 0xA960 0xA97C c then .leading
  else if isWithin 0x1160 0x11A7 c || isWithin 0xD7B0 0xD7C6 c then .vowel
  else if isWithin 0x11A8 0x11FF c || isWithin 0xD7CB 0xD7FB c then .trailing
  else if isWithin 0xAC00 0xD7A3 c then
    if (c.toNat - 0xAC00) % 28 = 0 then .openSyllable else .closedSyllable
  else if inRanges spacingRanges c then .spacing
  else if inRanges prependRanges c then .prepend
  else if inRanges pictographRanges c then .pictograph
  else .other

/-- What of the cluster so far the next break depends on: its last character, whether a pictograph
    with nothing but extensions behind it comes before that, and whether the regional indicators
    at its end are odd in number. -/
structure ClusterEnd where
  last : Joint
  pictograph : Bool
  oddRegional : Bool

def ClusterEnd.first (j : Joint) : ClusterEnd := ⟨j, j = .pictograph, j = .regional⟩

def ClusterEnd.add (e : ClusterEnd) (j : Joint) : ClusterEnd where
  last := j
  pictograph :=
    j = .pictograph || (e.pictograph && e.last ≠ .joiner && (j = .extend || j = .joiner))
  oddRegional := j = .regional && ¬ e.oddRegional

def isControl : Joint → Bool
  | .carriageReturn | .lineFeed | .control => true
  | _ => false

def joins (e : ClusterEnd) (j : Joint) : Bool :=
  match e.last, j with
  | .carriageReturn, .lineFeed => true
  | last, j =>
    if isControl last || isControl j then false
    else
      match last, j with
      | _, .extend | _, .joiner | _, .spacing | .prepend, _ => true
      | .leading, .leading | .leading, .vowel | .leading, .openSyllable
      | .leading, .closedSyllable | .openSyllable, .vowel | .vowel, .vowel
      | .openSyllable, .trailing | .vowel, .trailing | .closedSyllable, .trailing
      | .trailing, .trailing => true
      | .joiner, .pictograph => e.pictograph
      | .regional, .regional => e.oddRegional
      | _, _ => false

def clustersFrom (begun : Text) (e : ClusterEnd) : Text → List Text
  | [] => [begun.reverse]
  | c :: rest =>
    let j := joint c
    if joins e j then clustersFrom (c :: begun) (e.add j) rest
    else begun.reverse :: clustersFrom [c] (.first j) rest

def clusters : Text → List Text
  | [] => []
  | c :: rest => clustersFrom [c] (.first (joint c)) rest

theorem flatten_clustersFrom (begun : Text) (e : ClusterEnd) (t : Text) :
    (clustersFrom begun e t).flatten = begun.reverse ++ t := by
  induction t generalizing begun e with
  | nil => simp [clustersFrom]
  | cons c rest ih =>
    simp only [clustersFrom]
    split <;> simp [ih]

theorem flatten_clusters (t : Text) : (clusters t).flatten = t := by
  cases t with
  | nil => rfl
  | cons c rest => simp [clusters, flatten_clustersFrom]

end LineCalc.Text
