import ThreeAddress.Text.Extend
import ThreeAddress.Text.Ignorable
import ThreeAddress.Text.Wide

/-!
# Display width

The cells that a character takes in a fixed-width font:

* none for controls, for characters that are ignored when shown, for those that extend the one before
  them, for Hangul vowels and finals (they join the initial), for a few marks that enclose the digits
  after them, and for letters that lean on the next one;
* two for wide characters, one for all others;
* a handful of characters by name, in `exceptions`, which go first.
-/

namespace ThreeAddress.Text

/-- Hangul vowels and final consonants. -/
def jamoRanges : Ranges := [(0x1160, 0x11FF), (0xD7B0, 0xD7C6), (0xD7CB, 0xD7FB)]

/-- Marks over or around the digits that follow, and the Devanagari caret. -/
def enclosingRanges : Ranges :=
  [(0x605, 0x605), (0x70F, 0x70F), (0x890, 0x891), (0x8E2, 0x8E2), (0xA8FA, 0xA8FA)]

/-- Letters drawn on the letter after them: rephas, cluster-initial letters, and the Sharada and Soyombo
signs before a voiceless stop (the Unicode property Grapheme_Cluster_Break, value Prepend, version 15.1). -/
def prependedRanges : Ranges :=
  [(0xD4E, 0xD4E), (0x111C2, 0x111C3), (0x1193F, 0x1193F), (0x11941, 0x11941), (0x11A3A, 0x11A3A),
   (0x11A84, 0x11A89), (0x11D46, 0x11D46), (0x11F02, 0x11F02)]

/-- The controls of ASCII and of Latin-1. -/
def controlRanges : Ranges := [(0x0, 0x1F), (0x7F, 0x9F)]

/-- The initial filler and the Khmer vowel QAA are wide, the Khmer sign BEYYAL has three cells, and the
Tifinagh joiner is shown when it joins nothing. -/
def exceptions : List (Nat × Nat) := [(0x115F, 2), (0x17A4, 2), (0x17D8, 3), (0x2D7F, 1)]

def width (c : Char) : Nat :=
  match exceptions.lookup c.toNat with
  | some w => w
  | none =>
    if inRanges controlRanges c || isIgnorable c || isExtend c || inRanges jamoRanges c
        || inRanges enclosingRanges c || inRanges prependedRanges c then 0
    else if isWide c then 2
    else 1

end ThreeAddress.Text
