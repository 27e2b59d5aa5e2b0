import ShapeFlow.Proofs.Cycle
import ShapeFlow.Proofs.Verdict

/-!
# One more active edge

A graph with one more edge behind all others, which takes part in the computation.

* `Graph.reportsCycle_withEdge`: an edge back to what its target feeds closes a cycle.
* `Graph.carried?_withEdge`: **unless the target then lies behind a cycle, every edge into it carries
  what it would carry without the new one.**
* `Graph.arrivals_withEdge`: so the inputs of the target are those of before, and the new shape.
-/

namespace ShapeFlow.Graph

open Relation

variable {g : Graph} {e : Edge} {shape : Shape} (hactive : g.neglect? g.activeEdges e = none)
include hactive

theorem activeEdges_withEdge_of_active : (g.withEdge e).activeEdges = g.activeEdges ++ [e] := by
  rw [activeEdges_withEdge, if_pos hactive]

theorem mem_activeEdges_withEdge : e ∈ (g.withEdge e).activeEdges := by
  rw [activeEdges_withEdge_of_active hactive]
  simp

theorem incoming_withEdge : (g.withEdge e).incoming e.target = g.incoming e.target ++ [e] := by
  unfold incoming
  rw [activeEdges_withEdge_of_active hactive]
  simp [edgesInto]

theorem countP_incoming_withEdge :
    ((g.withEdge e).incoming e.target).countP (·.targetHandle == e.targetHandle) =
      (g.incoming e.target).countP (·.targetHandle == e.targetHandle) + 1 := by
  rw [incoming_withEdge hactive, List.countP_append]
  simp

theorem reaches_withEdge {a b : NodeId} (h : ReflTransGen g.Feeds a b) :
    ReflTransGen (g.withEdge e).Feeds a b := by
  have hmore : g.Feeds ≤ (g.withEdge e).Feeds := by
    intro a b hab
    refine hab.mono ?_
    rw [activeEdges_withEdge_of_active hactive]
    exact List.subset_append_left _ _
  exact ReflTransGen.mono hmore a b h

/-- **An edge back to what its target feeds closes a cycle** through both of its ends. -/
theorem reportsCycle_withEdge (h : ReflTransGen g.Feeds e.target e.source) :
    (g.withEdge e).recompute.ReportsCycle e.source ∧
      (g.withEdge e).recompute.ReportsCycle e.target := by
  have hedge : (g.withEdge e).Feeds e.source e.target :=
    linked_of_mem (mem_activeEdges_withEdge hactive)
  have htarget := reportsCycle_of_linked hedge (reaches_withEdge hactive h)
  exact ⟨reportsCycle_of_reflTransGen htarget (reaches_withEdge hactive h), htarget⟩

/-- What enters the target of the new edge comes from nodes that the target does not feed. -/
theorem get?_source_withEdge (h : ¬ (g.withEdge e).recompute.ReportsCycle e.target) :
    ∀ e' ∈ (g.withEdge e).incoming e.target,
      (g.withEdge e).results.get? e'.source = g.results.get? e'.source := by
  intro e' he'
  refine get?_withEdge_of_not_reached fun hreached => h ?_
  exact reportsCycle_of_linked (linked_of_incoming he') (reaches_withEdge hactive hreached)

/-- **The edges into the target carry what they would carry without the new edge.** -/
theorem carried?_withEdge (h : ¬ (g.withEdge e).recompute.ReportsCycle e.target) :
    ∀ e' ∈ (g.withEdge e).incoming e.target,
      carried? (g.withEdge e).results e' = carried? g.results e' := by
  intro e' he'
  unfold carried?
  rw [get?_source_withEdge hactive h e' he']

/-- The inputs of the target are those of before, and behind them what the new edge carries. -/
theorem arrivals_withEdge (h : ¬ (g.withEdge e).recompute.ReportsCycle e.target)
    (hshape : carried? g.results e = some shape) :
    arrivals (g.withEdge e).results ((g.withEdge e).incoming e.target) =
      (arrivals g.results (g.incoming e.target)).push e.targetHandle shape := by
  rw [arrivals_congr (get?_source_withEdge hactive h), incoming_withEdge hactive,
    arrivals_append_singleton hshape]

end ShapeFlow.Graph
