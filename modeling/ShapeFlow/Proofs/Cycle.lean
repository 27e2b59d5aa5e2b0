import ShapeFlow.Proofs.Locality

/-!
# Cycles are contained

* `Graph.reportsCycle_iff_behindCycle`: a node is reported to be behind a cycle iff it lies on one or
  is reached from one over active edges.
* `Graph.recompute_contains_cycles`: **that is all that a cycle does.** Every other node is evaluated
  on results that its sources have of their own, and would have the same result in any graph that
  agrees on what lies before it.
-/

namespace ShapeFlow.Graph

open Relation

variable {g : Graph} {id : NodeId}

theorem reportsCycle_iff_behindCycle :
    g.recompute.ReportsCycle id ↔ BehindCycle g.activeEdges id :=
  reportsCycle_iff_not_acc.trans not_acc_iff_behindCycle

/-- Two nodes of which each is reached from the other are behind a cycle, if an edge joins them. -/
theorem reportsCycle_of_linked {a b : NodeId} (hab : g.Feeds a b)
    (hba : ReflTransGen g.Feeds b a) : g.recompute.ReportsCycle b :=
  reportsCycle_iff_behindCycle.2 ⟨b, TransGen.tail' hba hab, ReflTransGen.refl⟩

theorem reportsCycle_of_reflTransGen {a : NodeId} (ha : g.recompute.ReportsCycle a)
    (h : ReflTransGen g.Feeds a id) : g.recompute.ReportsCycle id :=
  reportsCycle_iff_behindCycle.2 ((reportsCycle_iff_behindCycle.1 ha).of_reflTransGen h)

/-- **Cycles are contained.** The nodes that are reported to be behind cycles are those on a cycle
of active edges, loops included, and those reached from one. Every other node that carries tensors is
evaluated on the results of its sources, none of which is missing or behind a cycle, and whatever
cycles there are elsewhere: its result is the same in every graph that has the same nodes, with the
same active edges into them, wherever a path leads to it. -/
theorem recompute_contains_cycles (g : Graph) (id : NodeId) :
    (g.recompute.ReportsCycle id ↔
      ∃ c, TransGen g.Feeds c c ∧ ReflTransGen g.Feeds c id) ∧
    ∀ node, (id, node) ∈ g.tensorNodes →
      (¬ ∃ c, TransGen g.Feeds c c ∧ ReflTransGen g.Feeds c id) →
        g.recompute.nodes.get? id = some (node.evaluate (g.incoming id) g.recompute.nodes) ∧
        (∀ e ∈ g.incoming id, (g.recompute.nodes.get? e.source).isSome = true ∧
          ¬ g.recompute.ReportsCycle e.source) ∧
        ∀ h : Graph,
          (∀ a, ReflTransGen g.Feeds a id → h.node? a = g.node? a ∧ h.incoming a = g.incoming a) →
            h.recompute.nodes.get? id = g.recompute.nodes.get? id := by
  refine ⟨reportsCycle_iff_behindCycle, fun node hmem hfree => ⟨?_, ?_, ?_⟩⟩
  · exact g.solves_recompute.evaluated id node hmem fun h => hfree (reportsCycle_iff_behindCycle.1 h)
  · intro e he
    have hid : ¬ g.recompute.ReportsCycle id := fun h => hfree (reportsCycle_iff_behindCycle.1 h)
    refine ⟨g.solves_recompute.isSome_iff.2 ?_, not_reportsCycle_source hid e he⟩
    exact (fits_of_mem_activeEdges (mem_incoming.1 he).1).source_carriesTensors
  · intro h hsame
    refine get?_recompute_congr (P := fun a => ReflTransGen g.Feeds a id) ?_
      (fun a ha => (hsame a ha).1) (fun a ha => (hsame a ha).2) ReflTransGen.refl
    intro e he htarget
    exact ReflTransGen.head (linked_of_mem he) htarget

end ShapeFlow.Graph
