import ShapeFlow.Text.Extender
import ShapeFlow.Text.Unassigned

/-!
# Characters without a visible form

Quoted text spells out the characters that a reader could not see or that would join the one
before them: controls, formats, separators other than the space, private use, fillers, marks drawn
on the character before them, and code points given to no character.

* `Text.isHidden`: whether a character is one of them.
-/

namespace ShapeFlow.Text

/-- Ranges of controls, formats, surrogates, private use, and the separators other than the space
itself, in order. -/
def controlRanges : List (Nat × Nat) :=
  [(0x0, 0x1f), (0x7f, 0xa0), (0xad, 0xad), (0x600, 0x605), (0x61c, 0x61c), (0x6dd, 0x6dd),
    (0x70f, 0x70f), (0x890, 0x891), (0x8e2, 0x8e2), (0x1680, 0x1680), (0x180e, 0x180e),
    (0x2000, 0x200f), (0x2028, 0x202f), (0x205f, 0x2064), (0x2066, 0x206f), (0x3000, 0x3000),
    (0xd800, 0xf8ff), (0xfeff, 0xfeff), (0xfff9, 0xfffb), (0x110bd, 0x110bd), (0x110cd, 0x110cd),
    (0x13430, 0x1343f), (0x1bca0, 0x1bca3), (0x1d173, 0x1d17a), (0xe0001, 0xe0001),
    (0xe0020, 0xe007f), (0xf0000, 0xffffd), (0x100000, 0x10fffd)]

/-- Ranges of letters that stand for an absent one and are drawn as nothing. -/
def fillerRanges : List (Nat × Nat) :=
  [(0x115f, 0x1160), (0x3164, 0x3164), (0xffa0, 0xffa0)]

/-- Whether a character has no visible form of its own. Between the space and the tilde all have
one. -/
def isHidden (c : Char) : Bool :=
  if 0x20 ≤ c.toNat && c.toNat < 0x7f then false
  else inRanges controlRanges c || inRanges fillerRanges c || isExtender c || isUnassigned c

end ShapeFlow.Text
