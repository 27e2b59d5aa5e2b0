import ShapeFlow.Flow.Active
import ShapeFlow.Flow.Evaluate
import ShapeFlow.Flow.Order

/-!
# Computing a graph

* `Graph.results`: the result of every node that carries tensors.
* `Graph.verdicts`: the verdict on every edge id.
* `Graph.recompute`: both, with the warnings.
-/

namespace ShapeFlow.Graph

/-- The edges into a node in their order. -/
def edgesInto (edges : List Edge) (id : NodeId) : List Edge := edges.filter (·.target == id)

/-- The active edges into a node in the order of the graph. -/
def incoming (g : Graph) (id : NodeId) : List Edge := edgesInto g.activeEdges id

/-- The nodes that carry tensors in the order of their visits, and those inside or downstream of a
cycle. -/
def order (g : Graph) : List NodeId × List NodeId :=
  sweep (g.tensorNodes.map (·.1)) g.activeEdges

/-- The result of a node inside or downstream of a cycle. -/
def cyclic : Result := .blocked ⟨.cycleDetected, none, []⟩

/-- Evaluates a node on the results so far. -/
def evaluateInto (g : Graph) (active : List Edge) (results : Table Result) (id : NodeId) :
    Table Result :=
  match g.node? id with
  | some node => results.insert id (node.evaluate (edgesInto active id) results)
  | none => results

/-- The result of every node that carries tensors. -/
def results (g : Graph) : Table Result :=
  let (order, stuck) := g.order
  let start := Table.ofList (stuck.map (fun id => (id, cyclic)))
  order.foldl (g.evaluateInto g.activeEdges) start

/-- The verdict on an active edge. -/
def activeVerdict (results : Table Result) (edge : Edge) : Verdict :=
  match (results.get? edge.source).bind Result.shape? with
  | none => .inactive
  | some shape =>
    match (results.get? edge.target).bind Result.blockage? with
    | some blockage =>
      if blockage.edges.contains edge.id then .invalid blockage.error.code blockage.error.message
      else .ok shape
    | none => .ok shape

/-- The verdict on an edge. -/
def verdict (results : Table Result) (edge : Edge) (neglect? : Option Neglect) : Verdict :=
  match neglect? with
  | some neglect => .ignored neglect.code
  | none => activeVerdict results edge

/-- The verdict on every edge id; a repeated id keeps that of its first edge. -/
def verdicts (g : Graph) (results : Table Result) : Table Verdict :=
  g.classes.foldl
    (fun verdicts (edge, neglect?) => verdicts.insertNew edge.id (verdict results edge neglect?))
    Table.empty

/-- Computes all results of a graph from scratch. -/
def recompute (g : Graph) : Recomputation :=
  let results := g.results
  ⟨results, g.verdicts results, g.warnings⟩

end ShapeFlow.Graph
