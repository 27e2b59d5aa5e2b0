import ShapeFlow.Failure
import ShapeFlow.Table

/-!
# Results of a computation

* `Result`: a node has an output shape or is blocked.
* `Verdict`: how an edge looks.
* `Recomputation`: the results of all nodes, the verdicts on all edges, and the warnings.
-/

namespace ShapeFlow

/-- Why a node is blocked, and the incoming edges to which the failure is attributed. -/
structure Blockage where
  error : ShapeError
  handle : Option String
  edges : List EdgeId
deriving DecidableEq, Repr, Inhabited

namespace Blockage

/-- The node whose own failure is inherited. -/
def origin? (b : Blockage) : Option NodeId :=
  match b.error with
  | .upstreamError origin => some origin
  | _ => none

/-- The record of a blockage. -/
def toJson (b : Blockage) : Json :=
  .object
    ([("code", .text b.error.code.text), ("message", .text b.error.message),
      ("error", b.error.toJson)]
      ++ Json.optionalField "handle" .text b.handle
      ++ (if b.edges.isEmpty then [] else [("edges", .array (b.edges.map .text))])
      ++ Json.optionalField "origin" .text b.origin?)

end Blockage

/-- The result of a node. -/
inductive Result where
  | resolved (shape : Shape)
  | blocked (blockage : Blockage)
deriving DecidableEq, Repr, Inhabited

namespace Result

/-- Whether the node has an output shape. -/
def isResolved : Result → Bool
  | resolved _ => true
  | blocked _ => false

/-- The output shape. -/
def shape? : Result → Option Shape
  | resolved shape => some shape
  | blocked _ => none

/-- Why the node is blocked. -/
def blockage? : Result → Option Blockage
  | resolved _ => none
  | blocked blockage => some blockage

/-- The word for the state of the node. -/
def state : Result → String
  | resolved _ => "resolved"
  | blocked _ => "blocked"

/-- The record of a result. -/
def toJson (r : Result) : Json :=
  .object
    [("state", .text r.state), ("outputShape", Json.ofOption Shape.toJson r.shape?),
      ("error", Json.ofOption Blockage.toJson r.blockage?)]

end Result

/-- How an edge looks after a computation. -/
inductive Verdict where
  /-- It carries a shape into a node that did not refuse it. -/
  | ok (shape : Shape)
  /-- The failure of its target is attributed to it. -/
  | invalid (code : Code) (message : String)
  /-- Its source has no shape. -/
  | inactive
  /-- It takes no part; there is a warning. -/
  | ignored (code : Code)
deriving DecidableEq, Repr, Inhabited

namespace Verdict

/-- Whether the target's failure is attributed to the edge. -/
def isInvalid : Verdict → Bool
  | invalid .. => true
  | _ => false

/-- Whether the edge takes no part. -/
def isIgnored : Verdict → Bool
  | ignored _ => true
  | _ => false

/-- The record of a verdict, tagged by its status. -/
def toJson : Verdict → Json
  | ok shape => .object [("status", .text "ok"), ("shape", shape.toJson)]
  | invalid code message =>
    .object [("status", .text "invalid"), ("code", .text code.text), ("message", .text message)]
  | inactive => .object [("status", .text "inactive")]
  | ignored code => .object [("status", .text "ignored"), ("code", .text code.text)]

end Verdict

/-- All that one computation says of a graph. -/
structure Recomputation where
  nodes : Table Result
  edges : Table Verdict
  warnings : List Diagnostic
deriving DecidableEq, Inhabited

namespace Recomputation

/-- The output shape of a node. -/
def shape? (r : Recomputation) (id : NodeId) : Option Shape := (r.nodes.get? id).bind Result.shape?

/-- Why a node is blocked. -/
def blockage? (r : Recomputation) (id : NodeId) : Option Blockage :=
  (r.nodes.get? id).bind Result.blockage?

/-- The node whose own failure explains why a node is blocked: the origin of an inherited failure,
and otherwise the node itself. -/
def origin? (r : Recomputation) (id : NodeId) : Option NodeId :=
  (r.blockage? id).map (fun blockage => blockage.origin?.getD id)

/-- The blocked nodes in the order of their ids. -/
def blocked (r : Recomputation) : List (NodeId × Blockage) :=
  r.nodes.entries.filterMap (fun (id, result) => result.blockage?.map (id, ·))

/-- Every node has a shape and no failure is attributed to an edge. -/
def isValid (r : Recomputation) : Bool :=
  r.nodes.values.all Result.isResolved && !r.edges.values.any Verdict.isInvalid

/-- The fields of the record of a computation. -/
def fields (r : Recomputation) : List (String × Json) :=
  [("nodes", .object (r.nodes.entries.map (fun entry => (entry.1, entry.2.toJson)))),
    ("edges", .object (r.edges.entries.map (fun entry => (entry.1, entry.2.toJson)))),
    ("warnings", .array (r.warnings.map Diagnostic.toJson))]

/-- The record of a computation. -/
def toJson (r : Recomputation) : Json := .object r.fields

end Recomputation

end ShapeFlow
