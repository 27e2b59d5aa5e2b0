import ShapeFlow.Block.Schema

/-!
# Graphs

A graph holds placed blocks under their ids and the edges between them in the order in which they
were added. An edge may name nodes or handles that do not exist, and may repeat another; such edges
are reported when shapes are computed.

* `Graph.insert`: a repeated id keeps its first node and is remembered.
* `Edge.sameConnection`: equal ends and handles, whatever the ids.
-/

namespace ShapeFlow

/-- A placed block. -/
structure Node where
  block : Block
  params : Params
deriving Inhabited

/-- A connection from an output handle to an input handle. -/
structure Edge where
  id : EdgeId
  source : NodeId
  sourceHandle : String
  target : NodeId
  targetHandle : String
deriving DecidableEq, Repr, Inhabited

namespace Edge

/-- Whether two edges connect the same handles. -/
def sameConnection (a b : Edge) : Bool :=
  a.source == b.source && a.sourceHandle == b.sourceHandle &&
    a.target == b.target && a.targetHandle == b.targetHandle

/-- Both ends of an edge with their handles. -/
def route (e : Edge) : String :=
  s!"{e.source}.{e.sourceHandle} -> {e.target}.{e.targetHandle}"

/-- The id that an edge without one is given. -/
def defaultId (source target : NodeId) : EdgeId := s!"e-{source}-{target}"

/-- An edge with an id made of its ends, and of the input handle unless both handles are the
default ones. -/
def between (source : NodeId) (sourceHandle : String) (target : NodeId) (targetHandle : String) :
    Edge :=
  let id :=
    if sourceHandle = Block.defaultOutput ∧ targetHandle = Block.defaultInput then
      defaultId source target
    else s!"e-{source}-{target}.{targetHandle}"
  ⟨id, source, sourceHandle, target, targetHandle⟩

end Edge

/-- Placed blocks and the edges between them. -/
structure Graph where
  nodes : Table Node
  edges : List Edge
  /-- Ids that were used again, in the order of those uses. -/
  duplicates : List NodeId
deriving Inhabited

namespace Graph

/-- The graph without nodes. -/
def empty : Graph := ⟨Table.empty, [], []⟩

/-- Adds a node, unless its id is taken. -/
def insert (g : Graph) (id : NodeId) (node : Node) : Graph :=
  if g.nodes.contains id then { g with duplicates := g.duplicates ++ [id] }
  else { g with nodes := g.nodes.insert id node }

/-- Adds an edge behind all others. -/
def withEdge (g : Graph) (edge : Edge) : Graph := { g with edges := g.edges ++ [edge] }

/-- The node of an id. -/
def node? (g : Graph) (id : NodeId) : Option Node := g.nodes.get? id

/-- The ids of the nodes that carry tensors, in order. -/
def tensorNodes (g : Graph) : List (NodeId × Node) :=
  g.nodes.entries.filter (·.2.block.carriesTensors)

end Graph

end ShapeFlow
