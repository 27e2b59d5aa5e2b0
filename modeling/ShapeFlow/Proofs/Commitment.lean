import ShapeFlow.Proofs.Proposal

/-!
# Accepted edges are used

Whoever judges a proposal and whoever computes the graph look at the same nodes and handles. They
differ on a connection that is there already: the judgement minds only that the input is free, and
an input that merges always is, while the computation takes every connection once.

* `Graph.warnings_withEdge`: one more edge adds the warning about itself, if there is one.
* `Proposal.merges_of_repeated`: an accepted proposal repeats a connection only at an input that
  merges.
* `Proposal.accepted_edge_is_active`: **an accepted edge takes part in the computation unless it
  repeats a connection**, and then it changes nothing.
-/

namespace ShapeFlow

namespace Graph

variable {g : Graph} {active : List Edge} {e a : Edge}

/-- An edge that fits and repeats an active one is neglected for that. -/
theorem neglect?_eq_repeated (hfits : g.Fits e) (ha : a ∈ active)
    (hsame : a.sameConnection e = true) : g.neglect? active e = some .repeated := by
  obtain ⟨source, target, handle, hsource, htarget, houtput, hinput⟩ := hfits
  have hrepeats : active.any (·.sameConnection e) = true := List.any_eq_true.2 ⟨a, ha, hsame⟩
  unfold neglect?
  rw [hsource, htarget]
  dsimp only
  rw [houtput, hinput, hrepeats]
  rfl

theorem warnings_withEdge : (g.withEdge e).recompute.warnings =
    g.recompute.warnings ++ ((g.neglect? g.activeEdges e).map (Neglect.warning e)).toList := by
  change (g.withEdge e).warnings = g.warnings ++ _
  have hlast : [(e, g.neglect? g.activeEdges e)].filterMap
      (fun c => c.2.map (Neglect.warning c.1)) =
        ((g.neglect? g.activeEdges e).map (Neglect.warning e)).toList := by
    cases g.neglect? g.activeEdges e <;> rfl
  rw [warnings_eq, warnings_eq, classes_withEdge, List.filterMap_append, hlast,
    ← List.append_assoc]
  rfl

end Graph

namespace Proposal

open ShapeFlow.Graph

variable {g : Graph} {p : Proposal} {id : EdgeId} {shape? : Option Shape} {peers : Inputs}
  {source target : Node} {handle : InputHandle} {a : Edge}

/-- The target of a proposal merges what enters its handle. -/
def Merges (g : Graph) (p : Proposal) : Prop :=
  ∃ target handle, g.node? p.target = some target ∧
    target.block.input? p.targetHandle = some handle ∧ handle.merges = true

/-- **An accepted proposal repeats a connection only at an input that merges.** -/
theorem merges_of_repeated (h : p.Passes g shape? peers source target handle)
    (ha : a ∈ g.activeEdges) (hsame : a.sameConnection (p.edge id) = true) : p.Merges g := by
  refine ⟨target, handle, h.targetNode, h.input, ?_⟩
  have hends : a.target = p.target ∧ a.targetHandle = p.targetHandle := by
    simp only [Edge.sameConnection, Bool.and_eq_true, beq_iff_eq] at hsame
    exact ⟨hsame.1.2, hsame.2⟩
  rcases h.free with hmerges | hfree
  · exact hmerges
  · exact absurd hends.2 (hfree a ha hends.1)

/-- **An accepted edge is used.** Whether the shape at its source was known or not, and however many
edges enter its handle already, it takes its place behind the active edges without a warning, unless
one of them is the same connection. That can be at an input that merges; then the edge is neglected
as a repetition and the active edges stay what they are. -/
theorem accepted_edge_is_active (g : Graph) (p : Proposal) (id : EdgeId) (shape? : Option Shape)
    (haccept : judge g p shape? = .ok () ∨ judgeAgainst g g.recompute p = .ok ()) :
    ((∀ a ∈ g.activeEdges, a.sameConnection (p.edge id) = false) →
      p.edge id ∈ (g.withEdge (p.edge id)).activeEdges ∧
      (g.withEdge (p.edge id)).activeEdges = g.activeEdges ++ [p.edge id] ∧
      (g.withEdge (p.edge id)).classes = g.classes ++ [(p.edge id, none)] ∧
      (g.withEdge (p.edge id)).recompute.warnings = g.recompute.warnings) ∧
    ((∃ a ∈ g.activeEdges, a.sameConnection (p.edge id) = true) →
      p.Merges g ∧
      (g.withEdge (p.edge id)).activeEdges = g.activeEdges ∧
      (g.withEdge (p.edge id)).classes = g.classes ++ [(p.edge id, some .repeated)] ∧
      (g.withEdge (p.edge id)).recompute.warnings =
        g.recompute.warnings ++ [Neglect.warning (p.edge id) .repeated]) := by
  -- both judgements pass the same checks on the graph
  obtain ⟨source, target, handle, seen, peers, h⟩ : ∃ source target handle seen peers,
      p.Passes g seen peers source target handle := by
    rcases haccept with haccept | haccept
    · obtain ⟨source, target, handle, h⟩ := judgeWith_eq_ok_iff.1 haccept
      exact ⟨source, target, handle, _, _, h⟩
    · obtain ⟨source, target, handle, h⟩ := judgeWith_eq_ok_iff.1 haccept
      exact ⟨source, target, handle, _, _, h⟩
  have hfits := h.fits id
  constructor
  · intro hnew
    have hactive : g.neglect? g.activeEdges (p.edge id) = none :=
      neglect?_eq_none_iff.2 ⟨hfits, hnew⟩
    refine ⟨mem_activeEdges_withEdge hactive, activeEdges_withEdge_of_active hactive, ?_, ?_⟩
    · rw [classes_withEdge, hactive]
    · rw [warnings_withEdge, hactive]
      exact List.append_nil _
  · rintro ⟨a, ha, hsame⟩
    have hrepeated := neglect?_eq_repeated hfits ha hsame
    refine ⟨merges_of_repeated h ha hsame, ?_, ?_, ?_⟩
    · rw [activeEdges_withEdge, hrepeated, if_neg (Option.some_ne_none _)]
    · rw [classes_withEdge, hrepeated]
    · rw [warnings_withEdge, hrepeated]
      rfl

/-- The sum takes the second text beside the first, and the first once only. -/
theorem accepted_edge_is_active_summed :
    (summed.withEdge (edge ⟨"second", "out", "sum", "in"⟩ "new")).activeEdges =
        summed.activeEdges ++ [edge ⟨"second", "out", "sum", "in"⟩ "new"] ∧
      (summed.withEdge (edge ⟨"first", "out", "sum", "in"⟩ "new")).activeEdges =
        summed.activeEdges := by
  have hsecond : judgeAgainst summed summed.recompute ⟨"second", "out", "sum", "in"⟩ = .ok () := by
    decide +kernel
  have hfirst : judge summed ⟨"first", "out", "sum", "in"⟩ none = .ok () := by decide +kernel
  have hnew := (accepted_edge_is_active summed ⟨"second", "out", "sum", "in"⟩ "new" none
    (Or.inr hsecond)).1 (by decide +kernel)
  have hagain := (accepted_edge_is_active summed ⟨"first", "out", "sum", "in"⟩ "new" none
    (Or.inl hfirst)).2 (by decide +kernel)
  exact ⟨hnew.2.1, hagain.2.1⟩

/-- The first text is accepted at the sum again, with and without its shape, and neglected there. -/
theorem repeated_connection_is_accepted :
    judge summed ⟨"first", "out", "sum", "in"⟩ none = .ok () ∧
      judge summed ⟨"first", "out", "sum", "in"⟩ (some ⟨[.known 128]⟩) = .ok () ∧
      judgeAgainst summed summed.recompute ⟨"first", "out", "sum", "in"⟩ = .ok () ∧
      edge ⟨"first", "out", "sum", "in"⟩ "new" ∉
        (summed.withEdge (edge ⟨"first", "out", "sum", "in"⟩ "new")).activeEdges := by
  decide +kernel

end Proposal

end ShapeFlow
