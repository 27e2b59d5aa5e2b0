import ShapeFlow.Text.CodeRange

/-!
# Blanks and letter case

Names are compared without the blanks around them and without regard to the case of the letters
`A` to `Z`. Blank means the white space of Unicode, not only that of ASCII.

* `Text.trim`: a text without the blanks at its ends.
* `Text.fold`: a text with `A` to `Z` in lower case and all else unchanged.
-/

namespace ShapeFlow.Text

/-- The ranges of white space. -/
def blankRanges : List (Nat × Nat) :=
  [(0x9, 0xd), (0x20, 0x20), (0x85, 0x85), (0xa0, 0xa0), (0x1680, 0x1680), (0x2000, 0x200a),
    (0x2028, 0x2029), (0x202f, 0x202f), (0x205f, 0x205f), (0x3000, 0x3000)]

/-- Whether a character is white space. -/
def isBlank (c : Char) : Bool := inRanges blankRanges c

/-- Characters without the blanks at their ends. -/
def trimChars (cs : List Char) : List Char :=
  (((cs.dropWhile isBlank).reverse).dropWhile isBlank).reverse

/-- A text without the blanks at its ends. -/
def trim (text : String) : String := String.ofList (trimChars text.toList)

/-- A text with `A` to `Z` in lower case. -/
def fold (text : String) : String := String.ofList (text.toList.map Char.toLower)

/-- Whether two texts are equal apart from the case of `A` to `Z`. -/
def sameFolded (a b : String) : Bool := fold a == fold b

end ShapeFlow.Text
