import ShapeFlow.Flow.Proposal

/-!
# Summaries

* `Report.summary`: one line for every node, then the warnings, then one line for every edge, then
  the counts.
-/

namespace ShapeFlow.Report

/-- A line with its end. -/
def line (text : String) : String := text ++ "\n"

/-- The words for the result of a node. -/
def nodeStatus : Result → String
  | .resolved shape => "-> " ++ shape.text
  | .blocked blockage => "BLOCKED " ++ blockage.error.code.text ++ " " ++ blockage.error.message

/-- The words for the verdict on an edge. -/
def edgeStatus : Verdict → String
  | .ok shape => "ok " ++ shape.text
  | .invalid code _ => "invalid " ++ code.text
  | .inactive => "inactive"
  | .ignored code => "ignored " ++ code.text

/-- The lines for the nodes that have a result. -/
def nodeLines (g : Graph) (r : Recomputation) : List String :=
  g.nodes.entries.filterMap (fun (id, node) =>
    (r.nodes.get? id).map (fun result => id ++ ": " ++ node.block.name ++ " " ++ nodeStatus result))

/-- The edges whose ids have not occurred before. -/
def firstUses : (seen : List EdgeId) → List Edge → List Edge
  | _, [] => []
  | seen, edge :: rest =>
    if seen.contains edge.id then firstUses seen rest
    else edge :: firstUses (edge.id :: seen) rest

/-- The lines for the edges that have a verdict. -/
def edgeLines (g : Graph) (r : Recomputation) : List String :=
  (firstUses [] g.edges).filterMap (fun edge =>
    (r.edges.get? edge.id).map (fun verdict =>
      edge.id ++ ": " ++ edge.route ++ " " ++ edgeStatus verdict))

/-- Lines behind an empty one, or nothing. -/
def section? (lines : List String) : String :=
  if lines.isEmpty then "" else line "" ++ String.join (lines.map line)

/-- The line that counts results and warnings. -/
def countLine (r : Recomputation) : String :=
  let blocked := r.blocked.length
  let resolved := r.nodes.size - blocked
  let warnings := r.warnings.length
  s!"{resolved} resolved, {blocked} blocked, {warnings} warning(s)"

/-- The summary of a computation. -/
def summary (g : Graph) (r : Recomputation) : String :=
  String.join ((nodeLines g r).map line)
    ++ section? (r.warnings.map Diagnostic.render)
    ++ section? (edgeLines g r)
    ++ line "" ++ line (countLine r)

end ShapeFlow.Report
