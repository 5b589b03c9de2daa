import ScriptBoundary.Text.Cluster.Consonant
import ScriptBoundary.Text.Cluster.Pictograph
import ScriptBoundary.Text.Cluster.SpacingMark
import ScriptBoundary.Text.Extender

/-!
The roles that code points play in clusters of characters. Each has one.
-/

namespace ScriptBoundary.Text.Cluster

inductive Role where
  | control
  | carriageReturn
  | lineFeed
  /-- A Hangul consonant that begins a syllable. -/
  | leading
  | vowel
  /-- A Hangul consonant that ends a syllable. -/
  | trailing
  /-- A Hangul syllable without a trailing consonant. -/
  | openSyllable
  | closedSyllable
  | extender
  /-- An extender that joins the consonants around it. -/
  | linker
  | nonJoiner
  | joiner
  | spacingMark
  /-- A sign that belongs to the character after it. -/
  | preceding
  /-- Half of a flag. -/
  | regional
  | pictograph
  /-- A consonant that a linker can join to another. -/
  | consonant
  | other
deriving DecidableEq

/-- Closed ranges of code points in increasing order: controls, line and paragraph separators,
format characters, and unassigned numbers set aside for these. -/
def controlRanges : List (Nat × Nat) := [
  (0x0, 0x9), (0xb, 0xc), (0xe, 0x1f), (0x7f, 0x9f), (0xad, 0xad), (0x61c, 0x61c),
  (0x180e, 0x180e), (0x200b, 0x200b), (0x200e, 0x200f), (0x2028, 0x202e), (0x2060, 0x206f),
  (0xfeff, 0xfeff), (0xfff0, 0xfffb), (0x13430, 0x1343f), (0x1bca0, 0x1bca3),
  (0x1d173, 0x1d17a), (0xe0000, 0xe001f), (0xe0080, 0xe00ff), (0xe01f0, 0xe0fff)]

def precedingRanges : List (Nat × Nat) := [
  (0x600, 0x605), (0x6dd, 0x6dd), (0x70f, 0x70f), (0x890, 0x891), (0x8e2, 0x8e2), (0xd4e, 0xd4e),
  (0x110bd, 0x110bd), (0x110cd, 0x110cd), (0x111c2, 0x111c3), (0x113d1, 0x113d1),
  (0x1193f, 0x1193f), (0x11941, 0x11941), (0x11a84, 0x11a89), (0x11d46, 0x11d46),
  (0x11f02, 0x11f02)]

def linkers : List Nat := [
  0x94d, 0x9cd, 0xacd, 0xb4d, 0xc4d, 0xd4d, 0x1039, 0x17d2, 0x1a60, 0x1b44, 0x1bab, 0xa9c0, 0xaaf6,
  0x10a3f, 0x11133, 0x113d0, 0x1193e, 0x11a47, 0x11a99, 0x11f42]

def leadingRanges : List (Nat × Nat) := [(0x1100, 0x115f), (0xa960, 0xa97c)]

def vowelRanges : List (Nat × Nat) :=
  [(0x1160, 0x11a7), (0xd7b0, 0xd7c6), (0x16d63, 0x16d63), (0x16d67, 0x16d6a)]

def trailingRanges : List (Nat × Nat) := [(0x11a8, 0x11ff), (0xd7cb, 0xd7fb)]

/-- Syllables are numbered by leading consonant, vowel and trailing consonant, of which there are
27 and none. -/
def syllable? (point : Nat) : Option Role :=
  if 0xac00 ≤ point && point ≤ 0xd7a3 then
    some (if (point - 0xac00) % 28 = 0 then .openSyllable else .closedSyllable)
  else none

namespace Role

/-- The role of a code point outside the printable half of ASCII. -/
def ofPoint (point : Nat) : Role :=
  if point = 0xa then .lineFeed
  else if point = 0xd then .carriageReturn
  else if point = 0x200c then .nonJoiner
  else if point = 0x200d then .joiner
  else if linkers.contains point then .linker
  else if inRanges extenderRanges point then .extender
  else if 0x1f3fb ≤ point && point ≤ 0x1f3ff then .extender
  else if 0x1f1e6 ≤ point && point ≤ 0x1f1ff then .regional
  else if inRanges controlRanges point then .control
  else if inRanges precedingRanges point then .preceding
  else if inRanges leadingRanges point then .leading
  else if inRanges vowelRanges point then .vowel
  else if inRanges trailingRanges point then .trailing
  else if inRanges spacingMarkRanges point then .spacingMark
  else if inRanges pictographRanges point then .pictograph
  else if inRanges consonantRanges point then .consonant
  else (syllable? point).getD .other

/-- The modifiers of skin tone, U+1F3FB to U+1F3FF, extend a pictograph. -/
def ofChar (c : Char) : Role :=
  if 0x20 ≤ c.toNat && c.toNat < 0x7f then .other else ofPoint c.toNat

/-- A cluster of its own, but for a line feed after a carriage return. -/
def standsAlone : Role → Bool
  | .control | .carriageReturn | .lineFeed => true
  | _ => false

def isExtending : Role → Bool
  | .extender | .linker | .nonJoiner => true
  | _ => false

/-- Marks that may stand between joined consonants. -/
def isBetweenConsonants : Role → Bool
  | .extender | .linker | .joiner => true
  | _ => false

/-- The two belong to one Hangul syllable. -/
def inSyllable : Role → Role → Bool
  | .leading, .leading | .leading, .vowel | .leading, .openSyllable | .leading, .closedSyllable => true
  | .vowel, .vowel | .vowel, .trailing => true
  | .openSyllable, .vowel | .openSyllable, .trailing => true
  | .closedSyllable, .trailing | .trailing, .trailing => true
  | _, _ => false

end Role

end ScriptBoundary.Text.Cluster
