import ShapeFlow.Proofs.Verdict

/-!
# Neglected edges are inert

* `Graph.core`: a graph without its neglected edges and without the ids that were used again.
* `Graph.classes_core`: in a core every edge is active, whatever stood between them before.
* `Graph.neglected_edges_are_inert`: **a graph and its core have the same results, and the same
  verdicts on what both have**; one more edge that is neglected changes neither.
-/

namespace ShapeFlow.Graph

variable {g h : Graph} {active : List Edge} {e : Edge} {neglect : Neglect} {id : EdgeId}

/-- A graph without its neglected edges and without the ids that were used again. -/
def core (g : Graph) : Graph := ⟨g.nodes, g.activeEdges, []⟩

/-- The edges that are kept are kept again when nothing else stands between them. -/
theorem classesFrom_kept (g : Graph) (active edges : List Edge) :
    ∃ kept, g.activeFrom active edges = active ++ kept ∧
      g.classesFrom active kept = kept.map (·, none) := by
  -- an edge that is left out was not among those with which the next ones are compared
  induction edges generalizing active with
  | nil => exact ⟨[], by simp [activeFrom], rfl⟩
  | cons x xs ih =>
    cases hx : g.neglect? active x with
    | some neglect =>
      obtain ⟨kept, hactive, hclasses⟩ := ih active
      exact ⟨kept, by rw [activeFrom, hx, hactive], hclasses⟩
    | none =>
      obtain ⟨kept, hactive, hclasses⟩ := ih (active ++ [x])
      refine ⟨x :: kept, ?_, ?_⟩
      · rw [activeFrom, hx, hactive, List.append_assoc, List.singleton_append]
      · rw [classesFrom, hx, hclasses, List.map_cons]

/-- **In a core every edge is active.** -/
theorem classes_core : g.core.classes = g.activeEdges.map (·, none) := by
  have hblocks : g.SameBlocks g.core := fun _ => rfl
  obtain ⟨kept, hactive, hclasses⟩ := classesFrom_kept g [] g.edges
  rw [List.nil_append] at hactive
  rw [classes, classesFrom_congr hblocks, core, activeEdges, hactive, hclasses]

theorem activeEdges_core : g.core.activeEdges = g.activeEdges := by
  rw [activeEdges_eq_filterMap, classes_core, List.filterMap_map]
  simp

theorem warnings_core : g.core.recompute.warnings = [] := by
  change g.core.warnings = []
  rw [warnings, classes_core, List.filterMap_map]
  simp [core]

/-- Results depend on the nodes and the active edges. -/
theorem results_congr (hnodes : h.nodes = g.nodes) (hactive : h.activeEdges = g.activeEdges) :
    h.results = g.results := by
  have hstep : h.evaluateInto = g.evaluateInto := by
    funext active results id
    simp only [evaluateInto, node?, hnodes]
  simp only [results, order, tensorNodes, hnodes, hactive, hstep]

theorem results_core : g.core.results = g.results := results_congr rfl activeEdges_core

/-- **The verdicts in a core** are those on its edges in the graph. -/
theorem get?_edges_core (hids : (g.edges.map (·.id)).Nodup) :
    g.core.recompute.edges.get? id =
      if id ∈ g.activeEdges.map (·.id) then g.recompute.edges.get? id else none := by
  change (g.core.verdicts g.core.results).get? id =
    if id ∈ g.activeEdges.map (·.id) then (g.verdicts g.results).get? id else none
  rw [results_core]
  split
  · next hid =>
    obtain ⟨e, he, rfl⟩ := List.mem_map.1 hid
    have hcore : (e, none) ∈ g.core.classes := by
      rw [classes_core]
      exact List.mem_map.2 ⟨e, he, rfl⟩
    have hcoreIds : (g.core.edges.map (·.id)).Nodup := hids.sublist (activeEdges_sublist.map _)
    rw [get?_verdicts_of_mem hcoreIds hcore, get?_verdicts_of_mem hids (mem_activeEdges_iff.1 he)]
  · next hid =>
    rw [get?_verdicts, Option.map_eq_none_iff, List.find?_eq_none]
    intro c hc heq
    refine hid (List.mem_map.2 ⟨c.1, ?_, beq_iff_eq.1 heq⟩)
    rw [classes_core] at hc
    obtain ⟨e, he, rfl⟩ := List.mem_map.1 hc
    exact he

/-! ## One more edge -/

theorem results_withEdge_of_neglected (h : g.neglect? g.activeEdges e = some neglect) :
    (g.withEdge e).results = g.results := by
  refine results_congr rfl ?_
  rw [activeEdges_withEdge, h, if_neg (by simp)]

/-- A neglected edge changes no verdict but its own, and not even this if its id is taken. -/
theorem get?_edges_withEdge_of_neglected (h : g.neglect? g.activeEdges e = some neglect)
    (hid : id ≠ e.id ∨ id ∈ g.edges.map (·.id)) :
    (g.withEdge e).recompute.edges.get? id = g.recompute.edges.get? id := by
  change ((g.withEdge e).verdicts (g.withEdge e).results).get? id = (g.verdicts g.results).get? id
  rw [results_withEdge_of_neglected h, get?_verdicts, get?_verdicts, classes_withEdge,
    List.find?_append]
  cases hfirst : g.classes.find? (·.1.id == id) with
  | some c => rfl
  | none =>
    have hne : id ≠ e.id := by
      refine hid.resolve_right fun hmem => ?_
      rw [← map_id_classes] at hmem
      obtain ⟨c, hc, rfl⟩ := List.mem_map.1 hmem
      exact absurd (List.find?_eq_none.1 hfirst c hc) (by simp)
    simp [Ne.symm hne]

/-- **Neglected edges are inert.** A graph has the same results as its core, in which there is
nothing to warn about; with distinct edge ids the verdicts in the core are those on its edges. One
more edge that is neglected, for whatever reason, is judged so behind the same judgement on all
others; it changes no result, and no verdict under another id or an id that is taken. -/
theorem neglected_edges_are_inert (g : Graph) :
    g.core.recompute.nodes = g.recompute.nodes ∧
    g.core.recompute.warnings = [] ∧
    ((g.edges.map (·.id)).Nodup → ∀ id, g.core.recompute.edges.get? id =
      if id ∈ g.activeEdges.map (·.id) then g.recompute.edges.get? id else none) ∧
    ∀ e neglect, g.neglect? g.activeEdges e = some neglect →
      (g.withEdge e).classes = g.classes ++ [(e, some neglect)] ∧
      (g.withEdge e).recompute.nodes = g.recompute.nodes ∧
      ∀ id, id ≠ e.id ∨ id ∈ g.edges.map (·.id) →
        (g.withEdge e).recompute.edges.get? id = g.recompute.edges.get? id := by
  refine ⟨results_core, warnings_core, fun hids id => get?_edges_core hids, ?_⟩
  intro e neglect h
  refine ⟨?_, results_withEdge_of_neglected h, fun id => get?_edges_withEdge_of_neglected h⟩
  rw [classes_withEdge, h]

/-- An image that enters a softmax, and two activations in a cycle, with an edge to a node that does
not exist, one by a handle that does not exist, and one that repeats another. -/
def littered : Graph :=
  ⟨Table.ofList [("here", ⟨.activation, Table.empty⟩), ("image", ⟨.input, Table.empty⟩),
      ("soft", ⟨.softmax, Table.empty⟩), ("there", ⟨.activation, Table.empty⟩)],
    [⟨"lost", "image", "out", "ghost", "in"⟩, ⟨"feed", "image", "out", "soft", "in"⟩,
      ⟨"again", "image", "out", "soft", "in"⟩, ⟨"forth", "here", "out", "there", "in"⟩,
      ⟨"side", "image", "side", "soft", "in"⟩, ⟨"back", "there", "out", "here", "in"⟩],
    ["image"]⟩

theorem neglected_edges_are_inert_littered :
    littered.recompute.warnings.length = 4 ∧
      littered.core.recompute.nodes = littered.recompute.nodes ∧
      littered.core.recompute.edges.get? "feed" = some (.ok ⟨[.known 1, .known 28, .known 28]⟩) ∧
      littered.core.recompute.edges.get? "again" = none ∧
      (littered.withEdge ⟨"fourth", "there", "out", "here", "in"⟩).recompute.nodes =
        littered.recompute.nodes ∧
      (littered.withEdge ⟨"feed", "ghost", "out", "soft", "in"⟩).recompute.edges.get? "feed" =
        some (.ok ⟨[.known 1, .known 28, .known 28]⟩) := by
  obtain ⟨hnodes, -, hedges, hmore⟩ := neglected_edges_are_inert littered
  have hfeed : littered.recompute.edges.get? "feed" =
      some (.ok ⟨[.known 1, .known 28, .known 28]⟩) := by decide +kernel
  refine ⟨by decide +kernel, hnodes, ?_, ?_, ?_, ?_⟩
  · rw [hedges (by decide), if_pos (by decide +kernel), hfeed]
  · rw [hedges (by decide), if_neg (by decide +kernel)]
  · exact (hmore ⟨"fourth", "there", "out", "here", "in"⟩ .repeated (by decide +kernel)).2.1
  · rw [(hmore ⟨"feed", "ghost", "out", "soft", "in"⟩ (.missingNode "ghost")
      (by decide +kernel)).2.2 "feed" (Or.inr (by decide)), hfeed]

end ShapeFlow.Graph
