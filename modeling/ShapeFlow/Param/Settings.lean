import ShapeFlow.Param.Schema

/-!
# Reading parameters

The settings of a block are its parameters seen through its schema: an absent parameter has its
default, and every value is checked before it is used.

* `Settings.value`: the checked value under a key.
* `Settings.word`, `Settings.signed`, `Settings.pair`: numbers as words, cut to the range of a word.
-/

namespace ShapeFlow

/-- Parameters together with the schema that they are read by. -/
structure Settings where
  schema : List Param.Spec
  params : Params

namespace Settings

open Param

/-- The refusal of a value by the reader of its key. -/
def refuse {α : Type} (key expected : String) (value : Value) : Except ShapeError α :=
  .error (.invalidParam key ("expected " ++ expected ++ ", got " ++ value.render))

/-- The stored value under a key or else its default, checked against the schema. -/
def value (settings : Settings) (key : String) : Except ShapeError Value :=
  match settings.schema.find? (·.key == key) with
  | none => .error (.invalidParam key "not declared for this block")
  | some spec => do
    let value := (settings.params.get? key).getD spec.default
    spec.check value
    return value

/-- A number that is not negative, as a word. -/
def word (settings : Settings) (key : String) : Except ShapeError UInt64 := do
  match ← settings.value key with
  | .number x =>
    if 0 ≤ x then return x.toWord else refuse key "a non-negative whole number" (.number x)
  | other => refuse key "a non-negative whole number" other

/-- A size that zero leaves open. -/
def constraint (settings : Settings) (key : String) : Except ShapeError (Option UInt64) := do
  let size ← settings.word key
  return if size = 0 then none else some size

/-- A number as a signed word. -/
def signed (settings : Settings) (key : String) : Except ShapeError Int := do
  match ← settings.value key with
  | .number x => return x.toSigned
  | other => refuse key "a whole number" other

/-- A flag. -/
def flag (settings : Settings) (key : String) : Except ShapeError Bool := do
  match ← settings.value key with
  | .flag b => return b
  | other => refuse key "a boolean" other

/-- A text. -/
def text (settings : Settings) (key : String) : Except ShapeError String := do
  match ← settings.value key with
  | .text s => return s
  | other => refuse key "text" other

/-- Height and width, as a pair of numbers or as one number for both. -/
def pair (settings : Settings) (key : String) : Except ShapeError (UInt64 × UInt64) := do
  match ← settings.value key with
  | .number x => return (x.toWord, x.toWord)
  | .numbers [x, y] => return (x.toWord, y.toWord)
  | other => refuse key "a number or a pair" other

end Settings

end ShapeFlow
