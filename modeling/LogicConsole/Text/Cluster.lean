import LogicConsole.Text.Alphanumeric
import LogicConsole.Text.Bytes
import LogicConsole.Text.ClusterTable
/-!
Grapheme clusters: what a reader takes for one character. A text is cut into clusters before every
character that does not belong to the cluster so far. A backspace in a text removes the cluster
before it.
-/
namespace LogicConsole.Text

namespace Cluster

inductive Kind
  | carriageReturn
  | lineFeed
  | control
  | extender
  | joiner
  | spacingMark
  | opener
  | regional
  /-- Leading consonants, vowels and trailing consonants of Hangul, and its syllables. A few vowels
  of Kirat Rai join in the same way. -/
  | leading
  | vowel
  | trailing
  | openSyllable
  | closedSyllable
  | other
  deriving DecidableEq, Repr

def hangulKind (n : Nat) : Option Kind :=
  if (0x1100 ≤ n && n ≤ 0x115F) || (0xA960 ≤ n && n ≤ 0xA97C) then some .leading
  else if (0x1160 ≤ n && n ≤ 0x11A7) || (0xD7B0 ≤ n && n ≤ 0xD7C6) || n = 0x16D63 ||
      (0x16D67 ≤ n && n ≤ 0x16D6A) then some .vowel
  else if (0x11A8 ≤ n && n ≤ 0x11FF) || (0xD7CB ≤ n && n ≤ 0xD7FB) then some .trailing
  else if 0xAC00 ≤ n && n ≤ 0xD7A3 then
    some (if (n - 0xAC00) % 28 = 0 then .openSyllable else .closedSyllable)
  else none

def kind (c : Char) : Kind :=
  let n := c.toNat
  if n = 0x0D then .carriageReturn
  else if n = 0x0A then .lineFeed
  else if 0x20 ≤ n && n < 0x7F then .other
  else if n = 0x200D then .joiner
  else if 0x1F1E6 ≤ n && n ≤ 0x1F1FF then .regional
  else if inRanges n controls then .control
  else if inRanges n extenders then .extender
  else if inRanges n spacingMarks then .spacingMark
  else if inRanges n prepended then .opener
  else (hangulKind n).getD .other

def isPictograph (c : Char) : Bool := inRanges c.toNat pictographs

/-- How far a sequence has come that ends in a joined character. -/
inductive Progress
  | none
  | begun
  | joined
  deriving DecidableEq, Repr

/-- What the cluster so far says about the next character. -/
structure State where
  last : Kind
  /-- The cluster ends in an odd number of regional indicators. -/
  oddRegional : Bool
  /-- A pictograph, its marks, and a joiner. -/
  pictograph : Progress
  /-- A consonant, its marks, and a linker among them. -/
  conjunct : Progress
  deriving DecidableEq, Repr

def isBreaking (k : Kind) : Bool := k == .control || k == .carriageReturn || k == .lineFeed

def joinsHangul : Kind → Kind → Bool
  | .leading, .leading | .leading, .vowel | .leading, .openSyllable
  | .leading, .closedSyllable => true
  | .openSyllable, .vowel | .openSyllable, .trailing | .vowel, .vowel | .vowel, .trailing => true
  | .closedSyllable, .trailing | .trailing, .trailing => true
  | _, _ => false

/-- Does the character belong to the cluster? -/
def continues (s : State) (c : Char) : Bool :=
  let k := kind c
  if s.last == .carriageReturn && k == .lineFeed then true
  else if isBreaking s.last || isBreaking k then false
  else joinsHangul s.last k || k == .extender || k == .joiner || k == .spacingMark ||
    s.last == .opener || (s.conjunct == .joined && inRanges c.toNat consonants) ||
    (s.pictograph == .joined && isPictograph c) || (s.oddRegional && k == .regional)

def nextPictograph (p : Progress) (c : Char) : Progress :=
  if isPictograph c then .begun
  else if p == .none then .none
  else if kind c == .extender then if p == .begun then .begun else .none
  else if kind c == .joiner && p == .begun then .joined
  else .none

def nextConjunct (p : Progress) (c : Char) : Progress :=
  if inRanges c.toNat consonants then .begun
  else if p == .none then .none
  else if inRanges c.toNat linkers then .joined
  else if (kind c == .extender || kind c == .joiner) && c.toNat != 0x200C then p
  else .none

/-- A cluster that begins with the character. -/
def start (c : Char) : State :=
  { last := kind c, oddRegional := kind c == .regional
    pictograph := nextPictograph .none c, conjunct := nextConjunct .none c }

def extend (s : State) (c : Char) : State :=
  { last := kind c, oddRegional := kind c == .regional && !s.oddRegional
    pictograph := nextPictograph s.pictograph c, conjunct := nextConjunct s.conjunct c }

/-- The characters that go on with a cluster, and the rest. -/
def takeCluster (s : State) : List Char → List Char × List Char
  | [] => ([], [])
  | c :: rest =>
    if continues s c then
      let (cluster, rest) := takeCluster (extend s c) rest
      (c :: cluster, rest)
    else ([], c :: rest)

theorem takeCluster_append (s : State) (text : List Char) :
    (takeCluster s text).1 ++ (takeCluster s text).2 = text := by
  induction text generalizing s with
  | nil => rfl
  | cons c rest ih =>
    unfold takeCluster
    split
    · simp [ih]
    · rfl

theorem length_takeCluster_le (s : State) (text : List Char) :
    (takeCluster s text).2.length ≤ text.length := by
  have := congrArg List.length (takeCluster_append s text)
  simp only [List.length_append] at this
  omega

end Cluster

/-- The grapheme clusters of a text. -/
def clusters : List Char → List (List Char)
  | [] => []
  | c :: rest =>
    match h : Cluster.takeCluster (Cluster.start c) rest with
    | (cluster, rest') =>
      have : rest'.length ≤ rest.length := by
        have := Cluster.length_takeCluster_le (Cluster.start c) rest
        rwa [h] at this
      (c :: cluster) :: clusters rest'
  termination_by text => text.length

def backspace : Char := '\x08'

/-- A text as it is typed. -/
structure Typed where
  /-- The characters so far, the last one first. -/
  kept : List Char := []
  /-- How many bytes each cluster so far takes, counted in a byte, the last one first. -/
  sizes : List UInt8 := []
  deriving DecidableEq, Repr

/-- Type a cluster. A backspace takes away as many bytes as the last cluster is counted for, which
are less than the cluster's own if it takes 256 bytes or more; it fails where that cuts a
character. -/
def Typed.add? (t : Typed) (cluster : List Char) : Option Typed :=
  if cluster = [backspace] then
    match t.sizes with
    | [] => some t
    | size :: sizes => (dropBytes? size.toNat t.kept).map fun kept => { kept, sizes }
  else
    some {
      kept := cluster.reverse ++ t.kept
      sizes := UInt8.ofNat (byteSize cluster) :: t.sizes }

/-- Apply the backspaces of a text: each removes the cluster before it, if there is one. -/
def applyBackspaces? (text : List Char) : Option (List Char) :=
  ((clusters text).foldlM Typed.add? {}).map (·.kept.reverse)

end LogicConsole.Text
