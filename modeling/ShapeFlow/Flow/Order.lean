import ShapeFlow.Graph.Basic

/-!
# Order of evaluation

Nodes are visited once all edges into them have been released, and visiting a node releases the
edges out of it. Nodes that become free together are visited in the order of their ids. A node that
is never reached lies on a cycle or behind one.

* `Sweep.step`: one visit.
* `sweep`: the nodes in the order of their visits, and those that were never reached.
-/

namespace ShapeFlow

/-- A sweep under way. -/
structure Sweep where
  /-- The nodes visited, in order. -/
  visited : List NodeId
  /-- The nodes to visit next, in order. -/
  queue : List NodeId
  /-- Every node with the number of edges into it that are still held, in the order of ids. -/
  held : List (NodeId × Nat)
deriving DecidableEq, Repr

namespace Sweep

/-- The number of edges into a node. -/
def countInto (edges : List Edge) (node : NodeId) : Nat := edges.countP (·.target == node)

/-- The edges out of a node. -/
def edgesFrom (edges : List Edge) (node : NodeId) : List Edge := edges.filter (·.source == node)

/-- No node is visited, all edges are held, and the nodes without edges into them are next. -/
def start (edges : List Edge) (nodes : List NodeId) : Sweep :=
  { visited := []
    queue := nodes.filter (fun node => countInto edges node == 0)
    held := nodes.map (fun node => (node, countInto edges node)) }

/-- The nodes whose last held edges are among the released ones. -/
def freed (released : List Edge) (held : List (NodeId × Nat)) : List NodeId :=
  (held.filter (fun (node, count) =>
    0 < countInto released node && count ≤ countInto released node)).map (·.1)

/-- The nodes with the number of edges still held after some are released. -/
def release (released : List Edge) (held : List (NodeId × Nat)) : List (NodeId × Nat) :=
  held.map (fun (node, count) => (node, count - countInto released node))

/-- Visits the first node of the queue. -/
def step (edges : List Edge) (s : Sweep) (node : NodeId) (queue : List NodeId) : Sweep :=
  let released := edgesFrom edges node
  { visited := s.visited ++ [node]
    queue := queue ++ freed released s.held
    held := release released s.held }

/-- Visits nodes until the queue is empty. Every node enters the queue once at most, so the number
of nodes is fuel enough. -/
def run (edges : List Edge) : (fuel : Nat) → Sweep → Sweep
  | 0, s => s
  | fuel + 1, s =>
    match s.queue with
    | [] => s
    | node :: queue => run edges fuel (step edges s node queue)

end Sweep

/-- The nodes of a graph in the order of their visits, and the nodes that were never reached. The
nodes are given in the order of their ids. -/
def sweep (nodes : List NodeId) (edges : List Edge) : List NodeId × List NodeId :=
  let final := Sweep.run edges nodes.length (Sweep.start edges nodes)
  (final.visited, (final.held.filter (fun entry => 0 < entry.2)).map (·.1))

end ShapeFlow
