import ShapeFlow.Number.Layout

/-!
# JSON values

Whole numbers are kept apart from doubles, since the two are written differently. An object lists
its fields in the order in which they are written.

* `Json.layout`: how doubles are written.
-/

namespace ShapeFlow

/-- A JSON value. -/
inductive Json where
  | null
  | bool (b : Bool)
  | integer (n : Int)
  | real (x : Double)
  | text (s : String)
  | array (items : List Json)
  | object (fields : List (String × Json))
deriving Inhabited

namespace Json

/-- Doubles keep a fraction when whole, use a signed exponent outside of `10 ^ -5` to `10 ^ 15`,
and are `null` when not finite. -/
def layout : Layout where
  tie := .even
  positional := some (-5, 15)
  wholeMark := ".0"
  infinite := fun _ => "null"
  notNumber := "null"

/-- The value of an optional part, `null` when absent. -/
def ofOption {α : Type} (f : α → Json) : Option α → Json
  | some a => f a
  | none => null

/-- A field that is left out when absent. -/
def optionalField {α : Type} (name : String) (f : α → Json) : Option α → List (String × Json)
  | some a => [(name, f a)]
  | none => []

/-- A whole number that counts something. -/
def ofNat (n : Nat) : Json := integer n

end Json

end ShapeFlow
