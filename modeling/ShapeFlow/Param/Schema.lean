import ShapeFlow.Failure
import ShapeFlow.Param.Value
import ShapeFlow.Text.Blank

/-!
# Parameter schemas

A schema lists the parameters of a block type with their kinds, bounds and defaults. A value outside
of its kind or bounds is a failure like any other.

* `Param.Spec.check`: whether a value fits one entry.
* `Param.checkSchema`: the first stored value, in the order of the schema, that does not fit.
-/

namespace ShapeFlow.Param

/-- Inclusive bounds of a number; an absent one does not bind. -/
structure Bounds where
  lower : Option Double := none
  upper : Option Double := none
deriving DecidableEq

/-- What a parameter may hold. -/
inductive Kind where
  /-- A number without fraction. -/
  | whole (bounds : Bounds)
  /-- Any finite number. -/
  | real (bounds : Bounds)
  /-- A number without fraction, or a pair of them for height and width. -/
  | extent (bounds : Bounds)
  /-- One of some texts. -/
  | choice (options : List String)
  | flag
  | text
deriving DecidableEq

/-- The words for a kind. -/
def Kind.phrase : Kind → String
  | whole _ => "a whole number"
  | real _ => "a number"
  | extent _ => "a number or a pair"
  | choice _ => "a choice"
  | flag => "a boolean"
  | text => "text"

/-- One entry of a schema. -/
structure Spec where
  key : String
  kind : Kind
  default : Value

namespace Spec

/-- An entry for a number without fraction from `least` on. -/
def whole (key : String) (least default : Double) : Spec :=
  ⟨key, .whole ⟨some least, none⟩, .number default⟩

/-- An entry for a number without fraction within bounds. -/
def wholeWithin (key : String) (least greatest default : Double) : Spec :=
  ⟨key, .whole ⟨some least, some greatest⟩, .number default⟩

/-- An entry for a number within bounds. -/
def real (key : String) (least greatest default : Double) : Spec :=
  ⟨key, .real ⟨some least, some greatest⟩, .number default⟩

/-- An entry for one or two numbers without fraction from `least` on. -/
def extent (key : String) (least default : Double) : Spec :=
  ⟨key, .extent ⟨some least, none⟩, .number default⟩

/-- An entry for one of some texts. -/
def choice (key : String) (options : List String) (default : String) : Spec :=
  ⟨key, .choice options, .text default⟩

/-- An entry for a flag. -/
def flag (key : String) (default : Bool) : Spec := ⟨key, .flag, .flag default⟩

/-- An entry for free text. -/
def text (key default : String) : Spec := ⟨key, .text, .text default⟩

end Spec

/-- A number as it stands in messages. -/
def shown (x : Double) : String := Layout.plain.write x

/-- The reason why a number is refused by bounds, the lower one first. -/
def Bounds.objection? (bounds : Bounds) (x : Double) : Option String :=
  if !x.isFinite then some "value is not finite"
  else
    let below := match bounds.lower with
      | some least =>
        if x < least then some (shown x ++ " is below the minimum " ++ shown least) else none
      | none => none
    let above := match bounds.upper with
      | some greatest =>
        if greatest < x then some (shown x ++ " is above the maximum " ++ shown greatest) else none
      | none => none
    below <|> above

/-- The reason why a number is refused by bounds or for its fraction, the bounds first. -/
def Bounds.wholeObjection? (bounds : Bounds) (x : Double) : Option String :=
  bounds.objection? x <|>
    if x.isWhole then none else some (shown x ++ " is not a whole number")

/-- The reason why a value is refused by a kind. -/
def Kind.objection? (kind : Kind) (value : Value) : Option String :=
  match kind, value with
  | .whole bounds, .number x => bounds.wholeObjection? x
  | .real bounds, .number x => bounds.objection? x
  | .extent bounds, .number x => bounds.wholeObjection? x
  | .extent bounds, .numbers xs =>
    if xs.length ≠ 2 then
      some s!"expected a number or a pair, got {xs.length} values"
    else xs.findSome? bounds.wholeObjection?
  | .choice options, .text s =>
    if options.any (Text.sameFolded · s) then none
    else some ("'" ++ s ++ "' is not one of " ++ ", ".intercalate options)
  | .flag, .flag _ => none
  | .text, .text _ => none
  | kind, value => some ("expected " ++ kind.phrase ++ ", got " ++ value.render)

/-- Checks one value against its entry. -/
def Spec.check (spec : Spec) (value : Value) : Except ShapeError Unit :=
  match spec.kind.objection? value with
  | some reason => .error (.invalidParam spec.key reason)
  | none => .ok ()

/-- Checks the stored values in the order of the schema. Names outside of the schema are left
alone, since an editor may store data of its own. -/
def checkSchema : List Spec → Params → Except ShapeError Unit
  | [], _ => .ok ()
  | spec :: rest, params => do
    if let some value := params.get? spec.key then
      spec.check value
    checkSchema rest params

end ShapeFlow.Param
