import ShapeFlow.Json.Decode
import ShapeFlow.Json.Writer

/-!
# Parameter values

A block carries a bag of named parameters as an editor stores them, loosely typed. The form of a
JSON value decides what it is as a parameter.

* `Param.Value.ofJson`: numbers, lists of numbers, flags and texts are told apart from all else.
* `Param.Value.render`: a value as it stands in messages.
-/

namespace ShapeFlow

namespace Param

/-- A stored parameter. -/
inductive Value where
  | flag (b : Bool)
  | number (x : Double)
  | numbers (xs : List Double)
  | text (s : String)
  /-- A value that fits no schema: `null`, an object, or a list of anything but numbers. -/
  | other (json : Json)
deriving Inhabited

namespace Value

/-- The double of a JSON number. -/
def number? : Json → Option Double
  | .integer n => some (Double.ofInt n)
  | .real x => some x
  | _ => none

/-- The parameter that a JSON value stands for. -/
def ofJson : Json → Value
  | .bool b => flag b
  | .integer n => number (Double.ofInt n)
  | .real x => number x
  | .text s => text s
  | .array items =>
    match items.mapM number? with
    | some xs => numbers xs
    | none => other (.array items)
  | json => other json

/-- The JSON value of a parameter; a number is always written as a double. -/
def toJson : Value → Json
  | flag b => .bool b
  | number x => .real x
  | numbers xs => .array (xs.map .real)
  | text s => .text s
  | other json => json

/-- A value as it stands in messages. -/
def render : Value → String
  | flag b => if b then "true" else "false"
  | number x => Layout.plain.write x
  | numbers xs => "[" ++ ", ".intercalate (xs.map Layout.plain.write) ++ "]"
  | text s => Text.quoted s
  | other json => json.compact

end Value

end Param

/-- The named parameters of a block. -/
abbrev Params := Table Param.Value

namespace Params

/-- The object of all parameters in the order of their names. -/
def toJson (params : Params) : Json :=
  .object (params.entries.map (fun entry => (entry.1, entry.2.toJson)))

/-- The parameters of an object; a repeated name keeps its last value. -/
def decode : Json.Decoder Params := fun room tree => do
  let value : Json.Decoder Param.Value := fun room tree =>
    (Json.decode room tree).map Param.Value.ofJson
  return Table.ofList (← Json.Decode.fields value room tree)

end Params

end ShapeFlow
