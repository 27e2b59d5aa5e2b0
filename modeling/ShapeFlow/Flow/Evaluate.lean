import ShapeFlow.Flow.Result
import ShapeFlow.Graph.Basic
import ShapeFlow.Rule.Output

/-!
# Evaluating a node

The result of a node is a function of the node, of the active edges into it, and of the results of
their sources. A node's own problems come first: its parameters, then the number of edges at each
of its handles. Then it inherits the failure of the first source without a shape. Only then its rule
is asked.

* `Node.evaluate`: the result of a node.
-/

namespace ShapeFlow

/-- Demands an edge at every handle, and one edge only unless the handle merges. -/
def checkHandles (incoming : List Edge) : List InputHandle → Outcome Unit
  | [] => .ok ()
  | handle :: rest =>
    let count := incoming.countP (·.targetHandle == handle.name)
    if count = 0 then .error (Rule.missing handle.name)
    else if 1 < count ∧ !handle.merges then
      .error (.atHandle handle.name (.handleConflict handle.name count))
    else checkHandles incoming rest

/-- The failure that a node inherits over an edge whose source has no shape. -/
def inherited (results : Table Result) (edge : Edge) : Failure :=
  let origin := ((results.get? edge.source).bind Result.blockage?).bind Blockage.origin?
  .atHandle edge.targetHandle (.upstreamError (origin.getD edge.source))

/-- The shapes that edges carry, unless a source has none. -/
def collectInputs (results : Table Result) : Inputs → List Edge → Outcome Inputs
  | inputs, [] => .ok inputs
  | inputs, edge :: rest =>
    match (results.get? edge.source).bind Result.shape? with
    | some shape => collectInputs results (inputs.push edge.targetHandle shape) rest
    | none => .error (inherited results edge)

/-- The edges to which a failure is attributed: those into its handle whose sources have no shape if
the failure is inherited, the one at its position if it has one, and otherwise all. -/
def blamedEdges (failure : Failure) (incoming : List Edge) (results : Table Result) :
    List EdgeId :=
  match failure.handle with
  | none => []
  | some handle =>
    let entering := incoming.filter (·.targetHandle == handle)
    let blamed : List Edge := match failure.error, failure.position with
      | .upstreamError _, _ =>
        entering.filter (fun edge => ((results.get? edge.source).bind Result.shape?).isNone)
      | _, some position => (entering[position]?).toList
      | _, none => entering
    blamed.map (·.id)

namespace Node

/-- The output shape of a node, or why there is none. -/
def outputShape (node : Node) (incoming : List Edge) (results : Table Result) : Outcome Shape := do
  Rule.configured (Param.checkSchema node.block.schema node.params)
  checkHandles incoming node.block.inputs
  let inputs ← collectInputs results Inputs.none incoming
  node.block.outputShape node.params inputs

/-- The result of a node. -/
def evaluate (node : Node) (incoming : List Edge) (results : Table Result) : Result :=
  match node.outputShape incoming results with
  | .ok shape => .resolved shape
  | .error failure =>
    .blocked ⟨failure.error, failure.handle, blamedEdges failure incoming results⟩

end Node

end ShapeFlow
