/-!
# Lengths in bytes

Positions in a text count the bytes of its UTF-8 form.
-/

namespace ShapeFlow.Text

/-- The number of bytes of characters. -/
def byteLength : List Char → Nat
  | [] => 0
  | c :: rest => c.utf8Size + byteLength rest

theorem byteLength_append (xs ys : List Char) :
    byteLength (xs ++ ys) = byteLength xs + byteLength ys := by
  induction xs with
  | nil => exact (Nat.zero_add _).symm
  | cons c rest ih => rw [List.cons_append, byteLength, byteLength, ih, Nat.add_assoc]

end ShapeFlow.Text
