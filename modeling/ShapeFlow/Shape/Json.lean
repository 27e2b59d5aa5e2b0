import ShapeFlow.Json.Decode
import ShapeFlow.Shape.Basic

/-!
# Shapes as JSON

A shape is an array of whole numbers, with `null` for an unknown dimension.
-/

namespace ShapeFlow

/-- The size, or `null`. -/
def Dim.toJson : Dim → Json
  | known n => .integer n.toNat
  | unknown => .null

/-- The dimension that a value stands for: a whole number written as such that fits a word. -/
def Dim.ofJson? : Json → Option Dim
  | .null => some unknown
  | .integer n => if 0 ≤ n then Dim.ofNat? n.toNat else none
  | _ => none

/-- A dimension; a container is refused without looking into it. -/
def Dim.decode : Json.Tree → Except Json.Fault Dim
  | .null => .ok unknown
  | .number n =>
    match n.value? with
    | none => .error .malformed
    | some value => Json.Decode.required (Dim.ofJson? value)
  | tree => .error (Json.Decode.refuse tree)

/-- The list of dimensions. -/
def Shape.toJson (s : Shape) : Json := .array (s.dims.map Dim.toJson)

/-- A list of dimensions. -/
def Shape.decode : Json.Decoder Shape := fun room tree =>
  (Json.Decode.elements (fun _ item => Dim.decode item) room tree).map Shape.mk

end ShapeFlow
