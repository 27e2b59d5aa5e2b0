import ShapeFlow.Rule.Inputs

/-!
# Merging inputs

* `Rule.unify?`: two dimension lists agree and fill each other's unknown places.
* `Rule.add`, `Rule.concat`: elementwise sums and concatenation along an axis. The first input that
  does not fit those before it is the one to blame.
-/

namespace ShapeFlow.Rule

/-- The dimension known from either side, unless both are known and differ. -/
def unifyDim? : Dim → Dim → Option Dim
  | .unknown, d => some d
  | d, .unknown => some d
  | .known a, .known b => if a = b then some (.known a) else none

/-- Lists of the same length whose dimensions agree one by one. -/
def unify? : List Dim → List Dim → Option (List Dim)
  | [], [] => some []
  | a :: as, b :: bs => do return (← unifyDim? a b) :: (← unify? as bs)
  | _, _ => none

/-- Lists of the same length whose dimensions agree one by one but at the axis, where they are
added; a sum too large for a word is unknown. -/
def joinAt? : (axis : Nat) → List Dim → List Dim → Option (List Dim)
  | _, [], [] => some []
  | 0, a :: as, b :: bs => do return ((a.add? b).getD .unknown) :: (← unify? as bs)
  | axis + 1, a :: as, b :: bs => do return (← unifyDim? a b) :: (← joinAt? axis as bs)
  | _, _, _ => none

/-- Merges further inputs into those before them, from a position on. -/
def mergeFrom (merge? : List Dim → List Dim → Option (List Dim)) (mismatch : Shape → ShapeError) :
    (position : Nat) → (merged : List Dim) → List Shape → Outcome Shape
  | _, merged, [] => .ok ⟨merged⟩
  | position, merged, shape :: rest =>
    match merge? merged shape.dims with
    | some merged => mergeFrom merge? mismatch (position + 1) merged rest
    | none => .error (.atPosition Block.defaultInput position (mismatch shape))

/-- All inputs have the same shape where it is known. -/
def add (inputs : Inputs) : Outcome Shape :=
  match inputs.all Block.defaultInput with
  | [] => .error (missing Block.defaultInput)
  | first :: rest => mergeFrom unify? (.shapeMismatch first) 1 first.dims rest

/-- All inputs have the same shape where it is known, but for one axis along which they are laid
end to end. -/
def concat (settings : Settings) (inputs : Inputs) : Outcome Shape :=
  match inputs.all Block.defaultInput with
  | [] => .error (missing Block.defaultInput)
  | first :: rest => do
    let axis ← resolveAxis first (← configured (settings.signed "axis"))
    mergeFrom (joinAt? axis) (.axisMismatch axis first) 1 first.dims rest

end ShapeFlow.Rule
