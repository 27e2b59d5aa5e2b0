import ShapeFlow.Proofs.Equations

/-!
# A result depends on what lies before its node

* `Graph.get?_recompute_congr`: **graphs that agree on nodes and on the active edges into them, and
  on all that lies before, give these nodes the same results.**
* `Graph.get?_withEdge_of_not_reached`: one more edge changes no result but those of its target and
  behind it.
-/

namespace ShapeFlow.Graph

open Relation

variable {g h : Graph} {P : NodeId → Prop} {id : NodeId} {e : Edge}

theorem linked_incoming {a : NodeId} (ha : g.Feeds a id) :
    ∃ e ∈ g.incoming id, e.source = a := by
  obtain ⟨e, he, hs, ht⟩ := ha
  exact ⟨e, mem_incoming.2 ⟨he, ht⟩, hs⟩

/-- **Results depend on what lies before.** The predicate holds of nodes together with all their
sources. -/
theorem get?_recompute_congr (hclosed : ∀ e ∈ g.activeEdges, P e.target → P e.source)
    (hnode : ∀ id, P id → h.node? id = g.node? id)
    (hincoming : ∀ id, P id → h.incoming id = g.incoming id) (hid : P id) :
    h.recompute.nodes.get? id = g.recompute.nodes.get? id := by
  -- among these nodes both graphs have the same edges
  have hforth : ∀ a b, P b → g.Feeds a b → h.Feeds a b ∧ P a := by
    intro a b hb hab
    obtain ⟨e, he, rfl⟩ := linked_incoming hab
    obtain ⟨hactive, rfl⟩ := mem_incoming.1 he
    rw [← hincoming _ hb] at he
    exact ⟨linked_of_incoming he, hclosed e hactive hb⟩
  have hback : ∀ a b, P b → h.Feeds a b → g.Feeds a b ∧ P a := by
    intro a b hb hab
    obtain ⟨e, he, rfl⟩ := linked_incoming hab
    rw [hincoming _ hb] at he
    obtain ⟨hactive, rfl⟩ := mem_incoming.1 he
    exact ⟨linked_of_mem hactive, hclosed e hactive hb⟩
  have hg := g.solves_results
  have hh := h.solves_results
  have hcarries : ∀ id, P id → (h.CarriesTensors id ↔ g.CarriesTensors id) := by
    intro id hid
    rw [CarriesTensors, CarriesTensors, hnode id hid]
  change h.results.get? id = g.results.get? id
  -- evaluated in both graphs, behind a cycle in both, or without a result in both
  by_cases hc : g.CarriesTensors id
  · by_cases hacc : Acc g.Feeds id
    · induction hacc with
      | intro id hbefore ih =>
        have hacc : Acc g.Feeds id := Acc.intro id hbefore
        obtain ⟨node, hn⟩ := hc
        rw [hg.evaluated id node (mem_tensorNodes_iff.2 hn) (not_not_intro hacc),
          hh.evaluated id node (mem_tensorNodes_iff.2 (by rw [hnode id hid]; exact hn))
            (not_not_intro (acc_of_agree hback hid hacc)), hincoming id hid]
        refine congrArg some (Node.evaluate_congr (fun e he => ?_) node)
        obtain ⟨hactive, rfl⟩ := mem_incoming.1 he
        exact ih e.source (linked_of_mem hactive) (hclosed e hactive hid)
          (fits_of_mem_activeEdges hactive).source_carriesTensors
    · have hacc' : ¬ Acc h.Feeds id := fun h' => hacc (acc_of_agree hforth hid h')
      rw [hg.stuck id hc hacc, hh.stuck id ((hcarries id hid).2 hc) hacc']
  · have hc' : ¬ h.CarriesTensors id := fun h' => hc ((hcarries id hid).1 h')
    exact (get?_eq_none_iff.2 hc').trans (get?_eq_none_iff.2 hc).symm

/-! ## One more edge -/

theorem incoming_withEdge_of_ne (hne : id ≠ e.target) :
    (g.withEdge e).incoming id = g.incoming id := by
  unfold incoming
  rw [activeEdges_withEdge]
  split
  · simp [edgesInto, Ne.symm hne]
  · rfl

/-- **One more edge changes no result but those of its target and behind it.** -/
theorem get?_withEdge_of_not_reached (hid : ¬ ReflTransGen g.Feeds e.target id) :
    (g.withEdge e).recompute.nodes.get? id = g.recompute.nodes.get? id := by
  refine get?_recompute_congr (P := fun id => ¬ ReflTransGen g.Feeds e.target id) ?_ ?_ ?_ hid
  · intro e' he' htarget hsource
    exact htarget (hsource.tail (linked_of_mem he'))
  · intro id _
    rfl
  · intro id hid
    refine incoming_withEdge_of_ne fun heq => hid ?_
    rw [heq]

theorem shape?_withEdge_of_not_reached (hid : ¬ ReflTransGen g.Feeds e.target id) :
    (g.withEdge e).recompute.shape? id = g.recompute.shape? id := by
  rw [Recomputation.shape?, get?_withEdge_of_not_reached hid, Recomputation.shape?]

end ShapeFlow.Graph
