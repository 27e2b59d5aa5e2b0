/-!
# Tensor shapes

A shape is the list of dimensions that flow along an edge, batch dimension left out. A dimension
that could not be resolved is unknown: it is compatible with every dimension and absorbs
arithmetic, so a partially known shape never makes a mismatch.

* `Dim.ofNat?_eq_some_iff`, `Dim.ofNat?_eq_none_iff`: sums and products of known dimensions are
  exact below `2 ^ 64` and have no result from there on.
* `Shape.axis?_eq_some_iff`: an axis may be counted from the front or, when negative, from the end.
-/

namespace ShapeFlow

/-- One tensor dimension. -/
inductive Dim where
  | known (size : UInt64)
  | unknown
deriving DecidableEq, Repr, Inhabited

namespace Dim

/-- The known dimension of a size, if the size is a word. -/
def ofNat? (n : Nat) : Option Dim :=
  if h : n < UInt64.size then some (known (UInt64.ofNatLT n h)) else none

/-- Equal when both are known, and always when one is not. -/
def compatible : Dim → Dim → Bool
  | known a, known b => a == b
  | _, _ => true

/-- Whether the dimension is known to be another size than the one expected. -/
def differsFrom (d : Dim) (expected : UInt64) : Bool :=
  match d with
  | known n => n != expected
  | unknown => false

/-- The product, if it is unknown or a word. -/
def mul? : Dim → Dim → Option Dim
  | known a, known b => ofNat? (a.toNat * b.toNat)
  | _, _ => some unknown

/-- The sum, if it is unknown or a word. -/
def add? : Dim → Dim → Option Dim
  | known a, known b => ofNat? (a.toNat + b.toNat)
  | _, _ => some unknown

/-- Known dimensions stand before the unknown one and among themselves by size. -/
def before : Dim → Dim → Bool
  | known a, known b => a < b
  | known _, unknown => true
  | unknown, _ => false

/-- The size in digits, or a question mark. -/
def text : Dim → String
  | known n => toString n.toNat
  | unknown => "?"

theorem ofNat?_eq_some_iff (n : Nat) (d : Dim) :
    ofNat? n = some d ↔ ∃ m : UInt64, m.toNat = n ∧ d = known m := by
  unfold ofNat?
  split
  · next h =>
    constructor
    · intro e
      exact ⟨_, by simp, (Option.some.inj e).symm⟩
    · rintro ⟨m, rfl, rfl⟩
      simp
  · next h =>
    constructor
    · intro e; cases e
    · rintro ⟨m, rfl, -⟩
      exact absurd m.toNat_lt h

/-- A size is refused if it does not fit a word. -/
theorem ofNat?_eq_none_iff (n : Nat) : ofNat? n = none ↔ UInt64.size ≤ n := by
  unfold ofNat?
  split <;> simp_all [UInt64.size]

theorem compatible_comm (a b : Dim) : a.compatible b = b.compatible a := by
  cases a <;> cases b <;> simp [compatible, Bool.beq_comm]

end Dim

/-- Ordered tensor dimensions. -/
structure Shape where
  dims : List Dim
deriving DecidableEq, Repr, Inhabited

namespace Shape

/-- The fully known shape of the sizes given. -/
def ofSizes (sizes : List UInt64) : Shape := ⟨sizes.map .known⟩

/-- The number of dimensions. -/
def rank (s : Shape) : Nat := s.dims.length

/-- The dimension at a position. -/
def dim? (s : Shape) (i : Nat) : Option Dim := s.dims[i]?

/-- The trailing dimension. -/
def last? (s : Shape) : Option Dim := s.dims.getLast?

/-- Whether no dimension is unknown. -/
def isFullyKnown (s : Shape) : Bool := s.dims.all (· != .unknown)

/-- The shape with another trailing dimension; a shape of rank 0 gains one. -/
def withLast (s : Shape) (d : Dim) : Shape := ⟨s.dims.dropLast ++ [d]⟩

/-- The product of all dimensions from left to right, unless a partial product is too large. -/
def product? (s : Shape) : Option Dim := s.dims.foldlM Dim.mul? (.known 1)

/-- Same rank, and compatible at every position. -/
def compatible (s t : Shape) : Bool :=
  s.rank == t.rank && (s.dims.zip t.dims).all (fun pair => pair.1.compatible pair.2)

/-- The position of an axis, a negative one counting from the end. -/
def axis? (s : Shape) (axis : Int) : Option Nat :=
  let position := if axis < 0 then s.rank + axis else axis
  if 0 ≤ position ∧ position < s.rank then some position.toNat else none

/-- The dimensions in brackets, separated by commas. -/
def text (s : Shape) : String := "[" ++ ", ".intercalate (s.dims.map Dim.text) ++ "]"

/-- **The position of an axis**: it exists from `-rank` up to `rank`, the upper end excluded. -/
theorem axis?_eq_some_iff (s : Shape) (axis : Int) (i : Nat) :
    s.axis? axis = some i ↔
      i < s.rank ∧ ((0 ≤ axis ∧ axis = i) ∨ (axis < 0 ∧ axis + s.rank = i)) := by
  simp only [axis?]
  split <;> split <;> simp only [Option.some.injEq, reduceCtorEq, false_iff] <;> omega

@[simp] theorem rank_mk (dims : List Dim) : (Shape.mk dims).rank = dims.length := rfl

theorem rank_withLast (s : Shape) (d : Dim) : (s.withLast d).rank = max s.rank 1 := by
  simp only [withLast, rank, List.length_append, List.length_dropLast, List.length_singleton]
  omega

end Shape

end ShapeFlow
