import ShapeFlow.Diagnostic
import ShapeFlow.Shape.Json

/-!
# Failures

The closed set of reasons for which a node is blocked or a proposed connection is rejected.
Failures are data: they are stored with results and shown to users, and never stop a run.

* `ShapeError.message`: what a user reads.
* `ShapeError.isLocal`: whether the reason lies in the node itself.
* `ShapeError.toJson`: the record of an error, tagged by its kind.
-/

namespace ShapeFlow

/-- Why a block has no output shape, or why a connection cannot be made. -/
inductive ShapeError where
  | missingInput (handle : String)
  | dimensionMismatch (param : String) (expected actual : UInt64)
  | shapeMismatch (expected actual : Shape)
  | axisMismatch (axis : Nat) (expected actual : Shape)
  | embeddingDimMismatch (expected actual : UInt64)
  | invalidSpatialReduction (axis : String) (size : Int)
  | rankMismatch (expected : String) (actual : Nat)
  | axisOutOfRange (axis : Int) (rank : Nat)
  | sequenceTooLong (maxLen actual : UInt64)
  | unknownDataset (dataset : String)
  | invalidParam (key reason : String)
  | cycleDetected
  | upstreamError (origin : NodeId)
  | handleConflict (handle : String) (count : Nat)
  | handleUnavailable (handle reason : String)
  | selfConnection (node : NodeId)
  | unknownNode (node : NodeId)
deriving DecidableEq, Repr, Inhabited

namespace ShapeError

/-- The words for an error. -/
def message : ShapeError → String
  | missingInput handle => s!"required input '{handle}' is not connected"
  | dimensionMismatch param expected actual =>
    s!"{param} expects {expected.toNat}, but the input provides {actual.toNat}"
  | shapeMismatch expected actual =>
    s!"input shapes differ: {expected.text} vs {actual.text}"
  | axisMismatch axis expected actual =>
    s!"inputs disagree outside concat axis {axis}: {expected.text} vs {actual.text}"
  | embeddingDimMismatch expected actual =>
    s!"embedding dimension mismatch: expected {expected.toNat}, got {actual.toNat}"
  | invalidSpatialReduction axis size => s!"convolution reduces {axis} to {size}"
  | rankMismatch expected actual => s!"expected input of rank {expected}, got rank {actual}"
  | axisOutOfRange axis rank => s!"axis {axis} is out of range for rank {rank}"
  | sequenceTooLong maxLen actual =>
    s!"sequence length {actual.toNat} exceeds max_len {maxLen.toNat}"
  | unknownDataset dataset => s!"unknown dataset '{dataset}'"
  | invalidParam key reason => s!"invalid parameter '{key}': {reason}"
  | cycleDetected => "node is inside or downstream of a cycle"
  | upstreamError origin => s!"blocked by upstream node '{origin}'"
  | handleConflict handle count => s!"input '{handle}' accepts one connection, found {count}"
  | handleUnavailable handle reason => s!"handle '{handle}' is unavailable: {reason}"
  | selfConnection node => s!"cannot connect node '{node}' to itself"
  | unknownNode node => s!"node '{node}' does not exist"

/-- The stable code of an error. -/
def code : ShapeError → Code
  | missingInput .. => .missingInput
  | dimensionMismatch .. => .dimensionMismatch
  | shapeMismatch .. => .shapeMismatch
  | axisMismatch .. => .axisMismatch
  | embeddingDimMismatch .. => .embeddingDimMismatch
  | invalidSpatialReduction .. => .invalidSpatialReduction
  | rankMismatch .. => .rankMismatch
  | axisOutOfRange .. => .axisOutOfRange
  | sequenceTooLong .. => .sequenceTooLong
  | unknownDataset .. => .unknownDataset
  | invalidParam .. => .invalidParam
  | cycleDetected => .cycleDetected
  | upstreamError .. => .upstreamError
  | handleConflict .. => .handleConflict
  | handleUnavailable .. => .handleUnavailable
  | selfConnection .. => .selfConnection
  | unknownNode .. => .unknownNode

/-- Whether the error arises at the node itself and not in the graph around it. -/
def isLocal : ShapeError → Bool
  | cycleDetected => false
  | upstreamError _ => false
  | _ => true

/-- The name of the kind of an error. -/
def kind : ShapeError → String
  | missingInput .. => "MissingInput"
  | dimensionMismatch .. => "DimensionMismatch"
  | shapeMismatch .. => "ShapeMismatch"
  | axisMismatch .. => "AxisMismatch"
  | embeddingDimMismatch .. => "EmbeddingDimMismatch"
  | invalidSpatialReduction .. => "InvalidSpatialReduction"
  | rankMismatch .. => "RankMismatch"
  | axisOutOfRange .. => "AxisOutOfRange"
  | sequenceTooLong .. => "SequenceTooLong"
  | unknownDataset .. => "UnknownDataset"
  | invalidParam .. => "InvalidParam"
  | cycleDetected => "CycleDetected"
  | upstreamError .. => "UpstreamError"
  | handleConflict .. => "HandleConflict"
  | handleUnavailable .. => "HandleUnavailable"
  | selfConnection .. => "SelfConnection"
  | unknownNode .. => "UnknownNode"

/-- The fields of the record of an error behind its kind. -/
def details : ShapeError → List (String × Json)
  | missingInput handle => [("handle", .text handle)]
  | dimensionMismatch param expected actual =>
    [("param", .text param), ("expected", .integer expected.toNat),
      ("actual", .integer actual.toNat)]
  | shapeMismatch expected actual =>
    [("expected", expected.toJson), ("actual", actual.toJson)]
  | axisMismatch axis expected actual =>
    [("axis", .ofNat axis), ("expected", expected.toJson), ("actual", actual.toJson)]
  | embeddingDimMismatch expected actual =>
    [("expected", .integer expected.toNat), ("actual", .integer actual.toNat)]
  | invalidSpatialReduction axis size => [("axis", .text axis), ("size", .integer size)]
  | rankMismatch expected actual => [("expected", .text expected), ("actual", .ofNat actual)]
  | axisOutOfRange axis rank => [("axis", .integer axis), ("rank", .ofNat rank)]
  | sequenceTooLong maxLen actual =>
    [("max_len", .integer maxLen.toNat), ("actual", .integer actual.toNat)]
  | unknownDataset dataset => [("dataset", .text dataset)]
  | invalidParam key reason => [("key", .text key), ("reason", .text reason)]
  | cycleDetected => []
  | upstreamError origin => [("origin", .text origin)]
  | handleConflict handle count => [("handle", .text handle), ("count", .ofNat count)]
  | handleUnavailable handle reason => [("handle", .text handle), ("reason", .text reason)]
  | selfConnection node => [("node", .text node)]
  | unknownNode node => [("node", .text node)]

/-- The record of an error. -/
def toJson (e : ShapeError) : Json := .object (("kind", .text e.kind) :: e.details)

end ShapeError

/-- An error with the input it is attributed to. Without a handle the block's parameters alone are
the cause; without a position every connection of the handle is to blame. -/
structure Failure where
  error : ShapeError
  handle : Option String := none
  position : Option Nat := none
deriving DecidableEq, Repr, Inhabited

namespace Failure

/-- A failure of a block's parameters. -/
def ofError (error : ShapeError) : Failure := ⟨error, none, none⟩

/-- A failure of an input handle. -/
def atHandle (handle : String) (error : ShapeError) : Failure := ⟨error, some handle, none⟩

/-- A failure of one of the shapes that arrive at a merging handle. -/
def atPosition (handle : String) (position : Nat) (error : ShapeError) : Failure :=
  ⟨error, some handle, some position⟩

end Failure

end ShapeFlow
