import ShapeFlow.Report.Summary

/-!
# Drawings

* `Dot.quote`, `Dot.escape`: names and labels in the DOT language.
* `Dot.draw`: a graph with the results of its nodes and the verdicts on its edges.
-/

namespace ShapeFlow.Dot

/-- A text with another one in place of every occurrence of a character. -/
def replace (c : Char) (new text : String) : String :=
  String.ofList (text.toList.flatMap (fun d => if d = c then new.toList else [d]))

/-- A text with a backslash before every quote and every backslash. The backslashes come first, so
that those in front of quotes are not taken for characters of the text. -/
def escape (text : String) : String := replace '"' "\\\"" (replace '\\' "\\\\" text)

/-- A text as a quoted name, written character by character. -/
def quote (name : String) : String :=
  (name.toList.foldl
    (fun out c => (if c = '"' ∨ c = '\\' then out.push '\\' else out).push c) "\"").push '"'

/-- The color of a resolved node. -/
def color : Category → String
  | .io => "lightsalmon"
  | .layer => "lightblue"
  | .normalization => "lightgreen"
  | .elementwise => "lightyellow"
  | .merge => "plum"
  | .text => "lightcyan"
  | .notes => "white"

/-- A label attribute. -/
def label (text : String) : String := "label=\"" ++ text ++ "\""

/-- The color of a node, and its shape or the code that blocks it. -/
def appearance (r : Recomputation) (id : NodeId) (node : Node) : String × String :=
  match r.nodes.get? id with
  | some (.resolved shape) => (color node.block.category, shape.text)
  | some (.blocked blockage) => ("tomato", blockage.error.code.text)
  | none => ("gray90", "")

/-- The attributes of a node: a note for a board, and for any other block a box with its id, its
type, and its shape or the code that blocks it. -/
def nodeAttributes (r : Recomputation) (id : NodeId) (node : Node) : String :=
  if node.block = .board then "shape=note, style=filled, fillcolor=white, " ++ label (escape id)
  else
    let (fill, detail) := appearance r id node
    "shape=box, style=filled, fillcolor=" ++ fill ++ ", "
      ++ label (escape id ++ "\\n" ++ node.block.name ++ "\\n" ++ escape detail)

/-- The label at the head of an edge into another handle than the default one. -/
def headLabel (edge : Edge) : String :=
  if edge.targetHandle = Block.defaultInput then ""
  else ", headlabel=\"" ++ escape edge.targetHandle ++ "\""

/-- The attributes of an edge. -/
def edgeAttributes (edge : Edge) (verdict : Verdict) : String :=
  (match verdict with
    | .ok shape => label shape.text
    | .invalid code _ => "color=red, fontcolor=red, " ++ label code.text
    | .inactive => "style=dotted, color=gray50"
    | .ignored code => "style=dashed, color=gray70, fontcolor=gray50, " ++ label code.text)
    ++ headLabel edge

/-- The line for a node. -/
def nodeLine (r : Recomputation) (id : NodeId) (node : Node) : String :=
  "    " ++ quote id ++ " [" ++ nodeAttributes r id node ++ "];"

/-- The line for an edge. -/
def edgeLine (r : Recomputation) (edge : Edge) : String :=
  "    " ++ quote edge.source ++ " -> " ++ quote edge.target ++
    match r.edges.get? edge.id with
    | some verdict => " [" ++ edgeAttributes edge verdict ++ "];"
    | none => ";"

/-- The edges between nodes that exist. -/
def drawable (g : Graph) : List Edge :=
  g.edges.filter (fun edge => g.nodes.contains edge.source && g.nodes.contains edge.target)

/-- The lines above all nodes. -/
def header : List String :=
  ["digraph nsc \x7b", "    rankdir=LR;", "    node [fontname=\"Helvetica\", fontsize=10];",
    "    edge [fontname=\"Helvetica\", fontsize=9];", ""]

/-- The drawing of a graph with its computation. -/
def draw (g : Graph) (r : Recomputation) : String :=
  String.join (header.map Report.line)
    ++ String.join (g.nodes.entries.map (fun (id, node) => Report.line (nodeLine r id node)))
    ++ Report.section? ((drawable g).map (edgeLine r))
    ++ Report.line "\x7d"

end ShapeFlow.Dot
