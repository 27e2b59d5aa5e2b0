import ShapeFlow.Json.Tree
import ShapeFlow.Table

/-!
# Decoding JSON

A decoder walks a tree in the order of its text and stops at the first problem. Containers may be
nested up to a limit; every decoder of a container is told how many more levels may be opened.
Fields that nobody asked for are passed over and have no limit.

* `Decode.ofText`: a decoder applied to a whole text.
* `Decode.elements`, `Decode.fields`, `Decode.record`: arrays, objects of any names, and records,
  which may be written as objects or as arrays.
-/

namespace ShapeFlow.Json

/-- A decoder for values inside containers that leave room for so many more levels. -/
abbrev Decoder (α : Type) := (room : Nat) → Tree → Except Fault α

namespace Decode

/-- The number of containers that may be open at once. -/
def maxOpen : Nat := 127

/-- The fault of a value that has another form than the one asked for: a scalar is read to its end
first, a container is not opened. -/
def refuse : Tree → Fault
  | .broken halt => halt.needed
  | .number n => if n.value?.isSome then .wrongForm else .malformed
  | .text none => .malformed
  | _ => .wrongForm

mutual

/-- Passes over a value whatever its form. -/
def skip : Tree → Except Fault Unit
  | .broken halt => .error halt.passed
  | .array items stop => do skipItems items; skipStop stop
  | .object fields stop => do skipFields fields; skipStop stop
  | _ => .ok ()

/-- Passes over the items of an array. -/
def skipItems : List Tree → Except Fault Unit
  | [] => .ok ()
  | item :: rest => do skip item; skipItems rest

/-- Passes over the fields of an object. -/
def skipFields : List (Option String × Tree) → Except Fault Unit
  | [] => .ok ()
  | (_, value) :: rest => do skip value; skipFields rest

/-- Passes over the end of a container. -/
def skipStop : Option Halt → Except Fault Unit
  | some halt => .error halt.passed
  | none => .ok ()

end

/-- The end of a container. -/
def close : Option Halt → Except Fault Unit
  | some halt => .error halt.needed
  | none => .ok ()

/-- A string. -/
def text : Tree → Except Fault String
  | .text (some s) => .ok s
  | tree => .error (refuse tree)

/-- A value that may be `null`. -/
def nullable {α : Type} (f : Tree → Except Fault α) : Tree → Except Fault (Option α)
  | .null => .ok none
  | tree => (f tree).map some

/-- The name of a field. -/
def name : Option String → Except Fault String
  | some s => .ok s
  | none => .error .malformed

/-- An array of values of one kind. -/
def elements {α : Type} (item : Decoder α) : Decoder (List α)
  | 0, .array .. => .error .malformed
  | room + 1, .array items stop => do
    let values ← items.mapM (item room)
    close stop
    return values
  | _, tree => .error (refuse tree)

/-- An object whose fields are values of one kind: its fields in their order. -/
def fields {α : Type} (value : Decoder α) : Decoder (List (String × α))
  | 0, .object .. => .error .malformed
  | room + 1, .object fields stop => do
    let pairs ← fields.mapM (fun field => do
      let key ← name field.1
      return (key, ← value room field.2))
    close stop
    return pairs
  | _, tree => .error (refuse tree)

/-- A record under construction takes the value of one of its fields. -/
abbrev Taker (δ : Type) := δ → String → (room : Nat) → Tree → Except Fault δ

/-- The fields of a record written as an object. A field of another name is passed over, a repeated
one is refused before its value. -/
def recordFields {δ : Type} (known : List String) (take : Taker δ) (room : Nat) :
    List String → δ → List (Option String × Tree) → Except Fault δ
  | _, draft, [] => .ok draft
  | seen, draft, (key, value) :: rest => do
    let key ← name key
    if !known.contains key then
      skip value
      recordFields known take room seen draft rest
    else if seen.contains key then .error .wrongForm
    else
      let draft ← take draft key room value
      recordFields known take room (key :: seen) draft rest

/-- The fields of a record written as an array: the values in the order of the fields. -/
def recordItems {δ : Type} (take : Taker δ) (room : Nat) :
    List String → δ → List Tree → Except Fault δ
  | _, draft, [] => .ok draft
  | [], _, _ :: _ => .error .malformed
  | key :: known, draft, value :: rest => do
    let draft ← take draft key room value
    recordItems take room known draft rest

/-- A record of known fields, written as an object or as an array. -/
def record {δ : Type} (known : List String) (take : Taker δ) (start : δ) : Decoder δ
  | 0, .object .. => .error .malformed
  | 0, .array .. => .error .malformed
  | room + 1, .object fields stop => do
    let draft ← recordFields known take room [] start fields
    close stop
    return draft
  | room + 1, .array items stop => do
    let draft ← recordItems take room known start items
    close stop
    return draft
  | _, tree => .error (refuse tree)

/-- The value of a field that has to be there. -/
def required {α : Type} : Option α → Except Fault α
  | some a => .ok a
  | none => .error .wrongForm

/-- A decoder applied to a whole text, behind whose value only space may stand. -/
def ofText {α : Type} (decode : Decoder α) (text : String) : Except Fault α := do
  let (tree, rest) := Tree.read text
  let value ← decode maxOpen tree
  match rest with
  | some rest => if (Tree.skipSpace rest).isEmpty then return value else .error .malformed
  | none => .error .malformed

end Decode

/-- Fields in the order of their names, a repeated name keeping its last value. -/
def sortFields (fields : List (String × Json)) : List (String × Json) :=
  (Table.ofList fields).entries

mutual

/-- A value of any form; objects have their fields in the order of names. -/
def decode : (room : Nat) → Tree → Except Fault Json
  | _, .null => .ok .null
  | _, .bool b => .ok (.bool b)
  | _, .number n =>
    match n.value? with
    | some value => .ok value
    | none => .error .malformed
  | _, .text s =>
    match s with
    | some s => .ok (.text s)
    | none => .error .malformed
  | 0, .array .. => .error .malformed
  | 0, .object .. => .error .malformed
  | room + 1, .array items stop => do
    let items ← decodeItems room items
    Decode.close stop
    return .array items
  | room + 1, .object fields stop => do
    let fields ← decodeFields room fields
    Decode.close stop
    return .object (sortFields fields)
  | _, .broken halt => .error halt.needed

/-- The items of an array. -/
def decodeItems (room : Nat) : List Tree → Except Fault (List Json)
  | [] => .ok []
  | item :: rest => do
    let item ← decode room item
    let rest ← decodeItems room rest
    return item :: rest

/-- The fields of an object in their order. -/
def decodeFields (room : Nat) : List (Option String × Tree) → Except Fault (List (String × Json))
  | [] => .ok []
  | (key, value) :: rest => do
    let key ← Decode.name key
    let value ← decode room value
    let rest ← decodeFields room rest
    return (key, value) :: rest

end

end ShapeFlow.Json
