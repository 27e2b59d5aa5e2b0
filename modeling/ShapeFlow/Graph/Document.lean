import ShapeFlow.Graph.Basic

/-!
# Saved graphs

The document in which an editor saves a graph: nodes with their types and parameters, and edges.
Positions and other data of the editor are passed over when reading and left out when writing.

* `Graph.ofText`: the graph of a document.
* `Graph.toJson`: the document of a graph.
-/

namespace ShapeFlow

/-- A node as a document lists it; its type is still a name. -/
structure NodeEntry where
  id : String
  type : String
  params : Params

/-- An edge as a document lists it; parts with a default may be absent. -/
structure EdgeEntry where
  id : Option String
  source : String
  sourceHandle : Option String
  target : String
  targetHandle : Option String
deriving DecidableEq, Repr

/-- A saved graph before its names are resolved. -/
structure Document where
  nodes : List NodeEntry
  edges : List EdgeEntry

/-- Why a document has no graph. -/
inductive DocumentError where
  | json (fault : Json.Fault)
  | unknownBlock (node : String) (name : String)
deriving DecidableEq, Repr

namespace DocumentError

/-- The words for a fault of the text. -/
def faultMessage : Json.Fault → String
  | .ended => "the text ends too early"
  | .malformed => "the text is not JSON"
  | .wrongForm => "a value has the wrong form"

/-- The words for an error. -/
def message : DocumentError → String
  | json fault => "malformed graph document: " ++ faultMessage fault
  | unknownBlock node name => s!"node '{node}': " ++ Block.unknownMessage name

end DocumentError

namespace NodeEntry

/-- The parts of a node read so far. -/
structure Draft where
  id : Option String := none
  type : Option String := none
  params : Option Params := none

/-- Takes the value of a field. -/
def take : Json.Decode.Taker Draft := fun draft key room value => do
  match key with
  | "id" => return { draft with id := some (← Json.Decode.text value) }
  | "type" => return { draft with type := some (← Json.Decode.text value) }
  | _ => return { draft with params := some (← Params.decode room value) }

/-- A node, whose parameters may be absent. -/
def decode : Json.Decoder NodeEntry := fun room tree => do
  let draft ← Json.Decode.record ["id", "type", "params"] take {} room tree
  return ⟨← Json.Decode.required draft.id, ← Json.Decode.required draft.type,
    draft.params.getD Table.empty⟩

end NodeEntry

namespace EdgeEntry

/-- The parts of an edge read so far; a part that is `null` counts as absent. -/
structure Draft where
  id : Option String := none
  source : Option String := none
  sourceHandle : Option String := none
  target : Option String := none
  targetHandle : Option String := none

/-- Takes the value of a field. -/
def take : Json.Decode.Taker Draft := fun draft key _ value => do
  match key with
  | "id" => return { draft with id := ← Json.Decode.nullable Json.Decode.text value }
  | "source" => return { draft with source := some (← Json.Decode.text value) }
  | "sourceHandle" =>
    return { draft with sourceHandle := ← Json.Decode.nullable Json.Decode.text value }
  | "target" => return { draft with target := some (← Json.Decode.text value) }
  | _ => return { draft with targetHandle := ← Json.Decode.nullable Json.Decode.text value }

/-- An edge, whose ends have to be there. -/
def decode : Json.Decoder EdgeEntry := fun room tree => do
  let draft ← Json.Decode.record ["id", "source", "sourceHandle", "target", "targetHandle"]
    take {} room tree
  return ⟨draft.id, ← Json.Decode.required draft.source, draft.sourceHandle,
    ← Json.Decode.required draft.target, draft.targetHandle⟩

end EdgeEntry

namespace Document

/-- The parts of a document read so far. -/
structure Draft where
  nodes : Option (List NodeEntry) := none
  edges : Option (List EdgeEntry) := none

/-- Takes the value of a field; the version may be anything. -/
def take : Json.Decode.Taker Draft := fun draft key room value => do
  match key with
  | "version" =>
    let _ ← Json.decode room value
    return draft
  | "nodes" =>
    return { draft with nodes := some (← Json.Decode.elements NodeEntry.decode room value) }
  | _ => return { draft with edges := some (← Json.Decode.elements EdgeEntry.decode room value) }

/-- A document, whose edges may be absent. -/
def decode : Json.Decoder Document := fun room tree => do
  let draft ← Json.Decode.record ["version", "nodes", "edges"] take {} room tree
  return ⟨← Json.Decode.required draft.nodes, draft.edges.getD []⟩

end Document

/-- The node of an entry. A type name that implies an activation function sets it, unless the
parameters do. -/
def NodeEntry.node (entry : NodeEntry) : Except DocumentError Node :=
  match Block.ofName? entry.type with
  | none => .error (.unknownBlock entry.id entry.type)
  | some block =>
    let params := match Block.impliedActivation? entry.type with
      | some function => entry.params.insertNew "activation" (.text function)
      | none => entry.params
    .ok ⟨block, params⟩

/-- The edge of an entry. -/
def EdgeEntry.edge (entry : EdgeEntry) : Edge :=
  ⟨entry.id.getD (Edge.defaultId entry.source entry.target), entry.source,
    entry.sourceHandle.getD Block.defaultOutput, entry.target,
    entry.targetHandle.getD Block.defaultInput⟩

/-- Adds the nodes of entries in their order. -/
def Graph.insertEntries : Graph → List NodeEntry → Except DocumentError Graph
  | g, [] => .ok g
  | g, entry :: rest => do
    let node ← entry.node
    (g.insert entry.id node).insertEntries rest

/-- The graph of a document. -/
def Document.graph (document : Document) : Except DocumentError Graph := do
  let g ← Graph.empty.insertEntries document.nodes
  return { g with edges := document.edges.map EdgeEntry.edge }

/-- The graph of a text. -/
def Graph.ofText (text : String) : Except DocumentError Graph := do
  let document ← (Json.Decode.ofText Document.decode text).mapError DocumentError.json
  document.graph

/-- The entry of a node. -/
def Node.toJson (id : NodeId) (node : Node) : Json :=
  .object [("id", .text id), ("type", .text node.block.name), ("params", node.params.toJson)]

/-- The entry of an edge. -/
def Edge.toJson (e : Edge) : Json :=
  .object
    [("id", .text e.id), ("source", .text e.source), ("sourceHandle", .text e.sourceHandle),
      ("target", .text e.target), ("targetHandle", .text e.targetHandle)]

/-- The version of the documents that are written. -/
def Document.version : String := "1.0"

/-- The document of a graph. -/
def Graph.toJson (g : Graph) : Json :=
  .object
    [("version", .text Document.version),
      ("nodes", .array (g.nodes.entries.map (fun entry => entry.2.toJson entry.1))),
      ("edges", .array (g.edges.map Edge.toJson))]

/-- The text of the document of a graph. -/
def Graph.toText (g : Graph) : String := g.toJson.pretty

end ShapeFlow
