import ShapeFlow.Block.Schema

/-!
# Inputs of a rule

The shapes that arrive at a block, each with the handle that it enters by, in the order of the
edges. A merging handle may receive several.

* `Inputs.all`: the shapes of one handle in their order.
* `Rule.single`, `Rule.expectSize`, `Rule.expectWithin`, `Rule.resolveAxis`: the demands that rules
  make of their inputs.
-/

namespace ShapeFlow

/-- Shapes with the handles that they arrive at. -/
structure Inputs where
  arrivals : List (String × Shape)
deriving DecidableEq, Repr, Inhabited

namespace Inputs

/-- No shape at any handle. -/
def none : Inputs := ⟨[]⟩

/-- One more shape at a handle, behind those already there. -/
def push (inputs : Inputs) (handle : String) (shape : Shape) : Inputs :=
  ⟨inputs.arrivals ++ [(handle, shape)]⟩

/-- The shapes that arrive at a handle. -/
def all (inputs : Inputs) (handle : String) : List Shape :=
  (inputs.arrivals.filter (·.1 == handle)).map (·.2)

/-- The first shape that arrives at a handle. -/
def first? (inputs : Inputs) (handle : String) : Option Shape := (inputs.all handle).head?

/-- Whether a shape arrives at a handle. -/
def isConnected (inputs : Inputs) (handle : String) : Bool := !(inputs.all handle).isEmpty

end Inputs

/-- What the rule of a block answers. -/
abbrev Outcome (α : Type) := Except Failure α

namespace Rule

/-- A reading of the block's parameters, whose failures are attributed to no handle. -/
def configured {α : Type} (reading : Except ShapeError α) : Outcome α :=
  reading.mapError Failure.ofError

/-- A handle without a shape. -/
def missing (handle : String) : Failure := .atHandle handle (.missingInput handle)

/-- The shape at the default input. -/
def single (inputs : Inputs) : Outcome Shape :=
  match inputs.first? Block.defaultInput with
  | some shape => .ok shape
  | none => .error (missing Block.defaultInput)

/-- A shape of another rank than the one a rule asks for. -/
def rankMismatch (handle expected : String) (actual : Shape) : Failure :=
  .atHandle handle (.rankMismatch expected actual.rank)

/-- The trailing dimension of a shape that has to have one. -/
def trailing (handle : String) (shape : Shape) : Outcome Dim :=
  match shape.last? with
  | some d => .ok d
  | none => .error (rankMismatch handle "at least 1" shape)

/-- A configured size and a known dimension have to be equal. -/
def expectSize (param : String) (expected : UInt64) (actual : Dim) : Outcome Unit :=
  match actual with
  | .known n =>
    if n = expected then .ok ()
    else .error (.atHandle Block.defaultInput (.dimensionMismatch param expected n))
  | .unknown => .ok ()

/-- A configured size, unless it is left open, and a known dimension have to be equal. -/
def expectConstraint (settings : Settings) (param : String) (actual : Dim) : Outcome Unit := do
  match ← configured (settings.constraint param) with
  | some expected => expectSize param expected actual
  | none => return ()

/-- A known sequence must not be longer than the positions there are. -/
def expectWithin (maxLen : UInt64) (actual : Dim) : Outcome Unit :=
  match actual with
  | .known n =>
    if maxLen < n then .error (.atHandle Block.defaultInput (.sequenceTooLong maxLen n))
    else .ok ()
  | .unknown => .ok ()

/-- The position of an axis that has to exist. -/
def resolveAxis (shape : Shape) (axis : Int) : Outcome Nat :=
  match shape.axis? axis with
  | some position => .ok position
  | none => .error (.atHandle Block.defaultInput (.axisOutOfRange axis shape.rank))

end Rule

end ShapeFlow
