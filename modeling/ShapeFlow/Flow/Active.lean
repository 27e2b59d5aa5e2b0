import ShapeFlow.Diagnostic
import ShapeFlow.Graph.Basic

/-!
# Active edges

An edge takes part in a computation when both of its nodes exist, both of its handles are declared,
and no active edge before it is the same connection. Every other edge is neglected, with a warning.

* `Graph.neglect?`: why an edge is neglected, given the active edges before it.
* `Graph.activeEdges`: the active edges in the order of the graph.
* `Graph.classes`: the judgement on every edge in the order of the graph.
-/

namespace ShapeFlow

/-- Why an edge takes no part in a computation. -/
inductive Neglect where
  | missingNode (id : NodeId)
  | unknownOutput (id : NodeId) (block : Block)
  | unknownInput (id : NodeId) (block : Block)
  | repeated
deriving DecidableEq, Repr

namespace Neglect

/-- The code of the warning. -/
def code : Neglect → Code
  | missingNode _ => .danglingEdge
  | unknownOutput .. => .unknownHandle
  | unknownInput .. => .unknownHandle
  | repeated => .duplicateEdge

/-- The hint for a handle that a block does not have. -/
def handleHint (block : Block) (side : String) (names : List String) : String :=
  if names.isEmpty then block.name ++ " has no " ++ side ++ " handles"
  else "expected one of: " ++ ", ".intercalate names

/-- The message for a handle that a block does not have. -/
def handleMessage (edge : EdgeId) (side handle : String) (id : NodeId) (block : Block) : String :=
  s!"edge '{edge}' uses unknown {side} handle '{handle}' on '{id}' ({block.name})"

/-- The warning about a neglected edge. -/
def warning (edge : Edge) (neglect : Neglect) : Diagnostic :=
  let id := edge.id
  match neglect with
  | missingNode node =>
    { level := .warning, code := some neglect.code, edge := some id,
      message := s!"edge '{id}' references missing node '{node}'" }
  | unknownOutput node block =>
    { level := .warning, code := some neglect.code, edge := some id, node := some node,
      message := handleMessage id "output" edge.sourceHandle node block,
      hint := some (handleHint block "output" block.outputs) }
  | unknownInput node block =>
    { level := .warning, code := some neglect.code, edge := some id, node := some node,
      message := handleMessage id "input" edge.targetHandle node block,
      hint := some (handleHint block "input" (block.inputs.map (·.name))) }
  | repeated =>
    { level := .warning, code := some neglect.code, edge := some id,
      message := s!"edge '{id}' repeats an existing connection " ++ edge.route }

end Neglect

namespace Graph

/-- Why an edge is neglected, given the active edges before it. -/
def neglect? (g : Graph) (active : List Edge) (edge : Edge) : Option Neglect :=
  match g.node? edge.source, g.node? edge.target with
  | none, _ => some (.missingNode edge.source)
  | some _, none => some (.missingNode edge.target)
  | some source, some target =>
    if !source.block.hasOutput edge.sourceHandle then
      some (.unknownOutput edge.source source.block)
    else if (target.block.input? edge.targetHandle).isNone then
      some (.unknownInput edge.target target.block)
    else if active.any (·.sameConnection edge) then some .repeated
    else none

/-- The active edges among further edges, given those before them. -/
def activeFrom (g : Graph) : (active : List Edge) → List Edge → List Edge
  | active, [] => active
  | active, edge :: rest =>
    match g.neglect? active edge with
    | some _ => g.activeFrom active rest
    | none => g.activeFrom (active ++ [edge]) rest

/-- The active edges in the order of the graph. -/
def activeEdges (g : Graph) : List Edge := g.activeFrom [] g.edges

/-- The judgement on further edges, given the active ones before them. -/
def classesFrom (g : Graph) : (active : List Edge) → List Edge → List (Edge × Option Neglect)
  | _, [] => []
  | active, edge :: rest =>
    match g.neglect? active edge with
    | some neglect => (edge, some neglect) :: g.classesFrom active rest
    | none => (edge, none) :: g.classesFrom (active ++ [edge]) rest

/-- The judgement on every edge in the order of the graph: active, or why it is neglected. -/
def classes (g : Graph) : List (Edge × Option Neglect) := g.classesFrom [] g.edges

/-- The warning about an id that was used again. -/
def duplicateWarning (id : NodeId) : Diagnostic :=
  { level := .warning, code := some .duplicateNode, node := some id,
    message := s!"node id '{id}' appears more than once",
    hint := some "only the first node with this id is checked" }

/-- The warnings about a graph: ids used again, then neglected edges, each in order. -/
def warnings (g : Graph) : List Diagnostic :=
  g.duplicates.map duplicateWarning
    ++ g.classes.filterMap (fun (edge, neglect?) => neglect?.map (Neglect.warning edge))

end Graph

end ShapeFlow
