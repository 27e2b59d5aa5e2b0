import ShapeFlow.Proofs.Locality
import ShapeFlow.Proofs.Verdict

/-!
# Edits are local

* `Graph.Reconfigured`: two graphs that differ in the parameters of one node at most, as
  `Graph.configure` makes them.
* `Graph.classes_reconfigured`: the parameters of a node play no part in the judgement on edges.
* `Graph.edits_are_local`: **other parameters at a node, or one more edge into it, change the results
  of this node and of what it reaches**, and nothing else.
-/

namespace ShapeFlow.Graph

open Relation

variable {g h : Graph} {v id : NodeId}

/-- A graph is another with other parameters at one node. -/
structure Reconfigured (g : Graph) (v : NodeId) (h : Graph) : Prop where
  nodes : ∀ id, id ≠ v → h.node? id = g.node? id
  block : (h.node? v).map (·.block) = (g.node? v).map (·.block)
  edges : h.edges = g.edges
  duplicates : h.duplicates = g.duplicates

/-- A graph with other parameters at one node, if there is such a node. -/
def configure (g : Graph) (v : NodeId) (params : Params) : Graph :=
  match g.node? v with
  | some node => { g with nodes := g.nodes.insert v { node with params := params } }
  | none => g

theorem reconfigured_configure (params : Params) : g.Reconfigured v (g.configure v params) := by
  unfold configure
  split
  · next node hnode =>
    refine ⟨fun id hid => ?_, ?_, rfl, rfl⟩
    · exact (Table.get?_insert ..).trans (if_neg hid)
    · rw [hnode, node?, Table.get?_insert, if_pos rfl]
      rfl
  · exact ⟨fun _ _ => rfl, rfl, rfl, rfl⟩

/-- What lies off the reach of a node is not fed by what lies on it. -/
theorem not_reached_source {e : Edge} (he : e ∈ g.activeEdges)
    (h : ¬ ReflTransGen g.Feeds v e.target) : ¬ ReflTransGen g.Feeds v e.source :=
  fun hsource => h (hsource.tail (linked_of_mem he))

theorem Reconfigured.sameBlocks (hedit : g.Reconfigured v h) : g.SameBlocks h := by
  intro id
  by_cases hid : id = v
  · rw [hid, hedit.block]
  · rw [hedit.nodes id hid]

/-- **Parameters play no part in the judgement on edges.** -/
theorem classes_reconfigured (hedit : g.Reconfigured v h) : h.classes = g.classes := by
  rw [classes, hedit.edges, classesFrom_congr hedit.sameBlocks, classes]

theorem activeEdges_reconfigured (hedit : g.Reconfigured v h) : h.activeEdges = g.activeEdges := by
  rw [activeEdges_eq_filterMap, classes_reconfigured hedit, activeEdges_eq_filterMap]

theorem warnings_reconfigured (hedit : g.Reconfigured v h) :
    h.recompute.warnings = g.recompute.warnings := by
  change h.warnings = g.warnings
  rw [warnings, hedit.duplicates, classes_reconfigured hedit, warnings]

theorem get?_reconfigured (hedit : g.Reconfigured v h) (hid : ¬ ReflTransGen g.Feeds v id) :
    h.recompute.nodes.get? id = g.recompute.nodes.get? id := by
  refine get?_recompute_congr (P := fun id => ¬ ReflTransGen g.Feeds v id)
    (fun e he => not_reached_source he) (fun id hid => hedit.nodes id ?_) (fun id _ => ?_) hid
  · rintro rfl
    exact hid ReflTransGen.refl
  · rw [incoming, activeEdges_reconfigured hedit, incoming]

/-- An edge id keeps its verdict, if its first edge enters a node that is not affected. -/
theorem get?_edges_reconfigured (hedit : g.Reconfigured v h) {id : EdgeId} {e : Edge}
    (hfirst : g.edges.find? (·.id == id) = some e) (htarget : ¬ ReflTransGen g.Feeds v e.target) :
    h.recompute.edges.get? id = g.recompute.edges.get? id := by
  rw [find?_edges] at hfirst
  obtain ⟨c, hc, rfl⟩ := Option.map_eq_some_iff.1 hfirst
  change (h.verdicts h.results).get? id = (g.verdicts g.results).get? id
  rw [get?_verdicts, get?_verdicts, classes_reconfigured hedit, hc, Option.map_some, Option.map_some]
  refine congrArg some (verdict_congr fun hactive => ?_)
  -- an active edge brings a node that is not affected nothing from one that is
  have hmem : c.1 ∈ g.activeEdges := mem_activeEdges_iff.2 (hactive ▸ List.mem_of_find?_eq_some hc)
  exact ⟨get?_reconfigured hedit (not_reached_source hmem htarget), get?_reconfigured hedit htarget⟩

/-- **Edits are local.** A node that another does not reach over active edges, and is not, has the
same result whatever the parameters of the other are, and whatever further edge enters it. Other
parameters lead to the same warnings, and to the same verdict under every edge id whose first edge
enters a node that is not reached. -/
theorem edits_are_local (g : Graph) (v : NodeId) :
    (∀ h : Graph, g.Reconfigured v h →
      (∀ id, ¬ ReflTransGen g.Feeds v id →
        h.recompute.nodes.get? id = g.recompute.nodes.get? id) ∧
      h.recompute.warnings = g.recompute.warnings ∧
      ∀ id e, g.edges.find? (·.id == id) = some e → ¬ ReflTransGen g.Feeds v e.target →
        h.recompute.edges.get? id = g.recompute.edges.get? id) ∧
    ∀ e : Edge, e.target = v → ∀ id, ¬ ReflTransGen g.Feeds v id →
      (g.withEdge e).recompute.nodes.get? id = g.recompute.nodes.get? id := by
  constructor
  · intro h hedit
    refine ⟨fun id => get?_reconfigured hedit, warnings_reconfigured hedit, fun id e => ?_⟩
    exact get?_edges_reconfigured hedit
  · rintro e rfl id hid
    exact get?_withEdge_of_not_reached hid

/-- An image that enters a softmax, with an activation behind it, and a normalization beside it. -/
def branched : Graph :=
  ⟨Table.ofList [("image", ⟨.input, Table.empty⟩), ("last", ⟨.activation, Table.empty⟩),
      ("side", ⟨.layerNorm, Table.empty⟩), ("soft", ⟨.softmax, Table.empty⟩)],
    [⟨"first", "image", "out", "soft", "in"⟩, ⟨"second", "soft", "out", "last", "in"⟩,
      ⟨"third", "image", "out", "side", "in"⟩], []⟩

/-- Neither an axis that the image does not have nor an edge that closes a cycle at the softmax
matters to the normalization. -/
theorem edits_are_local_branched :
    ¬ ReflTransGen branched.Feeds "soft" "side" ∧
      (let broken := branched.configure "soft" (Table.empty.insert "dim" (.number 7))
      broken.recompute.shape? "last" = none ∧
        broken.recompute.nodes.get? "side" = some (.resolved ⟨[.known 1, .known 28, .known 28]⟩) ∧
        broken.recompute.edges.get? "third" = some (.ok ⟨[.known 1, .known 28, .known 28]⟩)) ∧
      (let cyclic := branched.withEdge ⟨"back", "last", "out", "soft", "in"⟩
      cyclic.recompute.ReportsCycle "last" ∧
        cyclic.recompute.nodes.get? "side" =
          some (.resolved ⟨[.known 1, .known 28, .known 28]⟩)) := by
  have hside : ¬ ReflTransGen branched.Feeds "soft" "side" := by
    intro h
    have hreached := mem_of_reflTransGen ["soft", "last"] (by decide +kernel) (by decide) h
    exact absurd hreached (by decide)
  obtain ⟨hparams, hedge⟩ := edits_are_local branched "soft"
  obtain ⟨hnodes, -, hedges⟩ :=
    hparams _ (reconfigured_configure (Table.empty.insert "dim" (.number 7)))
  refine ⟨hside, ⟨by decide +kernel, ?_, ?_⟩, by decide +kernel, ?_⟩
  · rw [hnodes "side" hside]
    decide +kernel
  · rw [hedges "third" ⟨"third", "image", "out", "side", "in"⟩ (by decide +kernel) hside]
    decide +kernel
  · rw [hedge ⟨"back", "last", "out", "soft", "in"⟩ rfl "side" hside]
    decide +kernel

end ShapeFlow.Graph
