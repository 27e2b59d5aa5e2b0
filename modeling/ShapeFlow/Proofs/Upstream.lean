import ShapeFlow.Proofs.Cycle

/-!
# Inherited failures

* `Recomputation.Inherits`: a node is blocked by the failure of another, its origin.
* `Node.Equipped`: nothing is amiss with a node itself. Its parameters fit their schema, and its
  handles have the edges that they need.
* `Graph.inherits_iff`: such a node inherits a failure iff an edge into it carries no shape.
* `Graph.inherits_traces`: **the origin of an inherited failure fails for a reason of its own, and
  the failure came from there over active edges.**
-/

namespace ShapeFlow

open Relation

/-- A node is blocked by the failure of another. -/
def Recomputation.Inherits (r : Recomputation) (id origin : NodeId) : Prop :=
  (r.blockage? id).map (·.error) = some (.upstreamError origin)

instance (r : Recomputation) (id origin : NodeId) : Decidable (r.Inherits id origin) :=
  inferInstanceAs (Decidable (_ = _))

theorem Recomputation.inherits_of_blockage {r : Recomputation} {id origin : NodeId}
    {blockage : Blockage} (h : r.blockage? id = some blockage)
    (herror : blockage.error = .upstreamError origin) : r.Inherits id origin := by
  rw [Inherits, h, Option.map_some, herror]

/-- A node with parameters that fit their schema, an edge at every handle, and one edge only at a
handle that does not merge. -/
structure Node.Equipped (node : Node) (incoming : List Edge) : Prop where
  settings : Param.checkSchema node.block.schema node.params = .ok ()
  connected : ∀ handle ∈ node.block.inputs, ∃ e ∈ incoming, e.targetHandle = handle.name
  single : ∀ handle ∈ node.block.inputs, handle.merges = false →
    (incoming.filter (·.targetHandle == handle.name)).length = 1

theorem Node.equipped_iff {node : Node} {incoming : List Edge} :
    node.Equipped incoming ↔ Param.checkSchema node.block.schema node.params = .ok () ∧
      checkHandles incoming node.block.inputs = .ok () := by
  constructor
  · intro h
    refine ⟨h.settings, checkHandles_eq_ok_iff.2 fun handle hm => ⟨?_, ?_⟩⟩
    · obtain ⟨e, he, hname⟩ := h.connected handle hm
      exact List.countP_pos_iff.2 ⟨e, he, by simpa using hname⟩
    · cases hmerges : handle.merges with
      | true => exact Or.inr rfl
      | false =>
        have hsingle := h.single handle hm hmerges
        rw [← List.countP_eq_length_filter] at hsingle
        exact Or.inl hsingle.le
  · rintro ⟨hschema, hhandles⟩
    have hcounts := checkHandles_eq_ok_iff.1 hhandles
    refine ⟨hschema, fun handle hm => ?_, fun handle hm hmerges => ?_⟩
    · obtain ⟨e, he, hname⟩ := List.countP_pos_iff.1 (hcounts handle hm).1
      exact ⟨e, he, by simpa using hname⟩
    · obtain ⟨hpos, hle | hm'⟩ := hcounts handle hm
      · rw [← List.countP_eq_length_filter]
        omega
      · rw [hmerges] at hm'
        cases hm'

namespace Blockage

variable {b : Blockage}

theorem origin?_eq_some_iff {origin : NodeId} :
    b.origin? = some origin ↔ b.error = .upstreamError origin := by
  unfold origin?
  split <;> simp_all

theorem isLocal_of_origin?_eq_none (h : b.origin? = none) (hcycle : b.error ≠ .cycleDetected) :
    b.error.isLocal = true := by
  unfold ShapeError.isLocal
  split
  · next herror => exact absurd herror hcycle
  · next origin herror =>
    rw [origin?_eq_some_iff.2 herror] at h
    cases h
  · rfl

end Blockage

namespace Graph

variable {g : Graph} {id origin : NodeId} {node : Node} {e : Edge}

theorem not_reportsCycle_of_inherits (h : g.recompute.Inherits id origin) :
    ¬ g.recompute.ReportsCycle id := by
  intro hcycle
  cases h.symm.trans hcycle

/-- What is blocked has a result, so it is a node that carries tensors. -/
theorem carriesTensors_of_blocked (h : (g.recompute.blockage? id).isSome) :
    g.CarriesTensors id := by
  obtain ⟨blockage, hblockage⟩ := Option.isSome_iff_exists.1 h
  obtain ⟨result, hresult, -⟩ := Option.bind_eq_some_iff.1 hblockage
  exact carriesTensors_of_get? hresult

/-- A blocked node that is not behind a cycle fails in its evaluation. -/
theorem fails_of_blockage {blockage : Blockage} (h : g.recompute.blockage? id = some blockage)
    (hcycle : ¬ g.recompute.ReportsCycle id) :
    ∃ node f, (id, node) ∈ g.tensorNodes ∧ node.Fails (g.incoming id) g.results f ∧
      blockage = ⟨f.error, f.handle, blamedEdges f (g.incoming id) g.results⟩ := by
  have hsome : (g.recompute.blockage? id).isSome := by rw [h]; rfl
  obtain ⟨node, hnode⟩ := carriesTensors_of_blocked hsome
  have hmem := mem_tensorNodes_iff.2 hnode
  have hvalue := g.solves_recompute.evaluated id node hmem hcycle
  rw [Recomputation.blockage?, hvalue, Option.bind_some] at h
  obtain ⟨f, hfails, hblockage⟩ := Node.evaluate_blockage? h
  exact ⟨node, f, hmem, hfails, hblockage⟩

theorem blockage_of_fails (hmem : (id, node) ∈ g.tensorNodes)
    (hcycle : ¬ g.recompute.ReportsCycle id) {f : Failure}
    (h : node.Fails (g.incoming id) g.results f) :
    g.recompute.blockage? id =
      some ⟨f.error, f.handle, blamedEdges f (g.incoming id) g.results⟩ := by
  have hvalue := g.solves_recompute.evaluated id node hmem hcycle
  rw [Recomputation.blockage?, hvalue, Option.bind_some]
  change (node.evaluate (g.incoming id) g.results).blockage? = _
  rw [Node.evaluate_of_fails h]
  rfl

/-- An edge carries no shape iff its source is blocked. -/
theorem carried?_eq_none_iff (he : e ∈ g.activeEdges) :
    carried? g.results e = none ↔ (g.recompute.blockage? e.source).isSome := by
  rw [carried?_results,
    isSome_blockage?_iff (fits_of_mem_activeEdges he).source_carriesTensors]

/-- **When a failure is inherited**: nothing is amiss with the node itself, and an edge into it
carries no shape. -/
theorem inherits_iff (hmem : (id, node) ∈ g.tensorNodes) (hcycle : ¬ g.recompute.ReportsCycle id) :
    (∃ origin, g.recompute.Inherits id origin) ↔
      node.Equipped (g.incoming id) ∧ ∃ e ∈ g.incoming id, carried? g.results e = none := by
  constructor
  · rintro ⟨origin, h⟩
    obtain ⟨blockage, hblockage, herror⟩ := Option.map_eq_some_iff.1 h
    obtain ⟨node', f, hmem', hfails, rfl⟩ := fails_of_blockage hblockage hcycle
    have hnode := (mem_tensorNodes_iff.1 hmem).1
    rw [(mem_tensorNodes_iff.1 hmem').1, Option.some.injEq] at hnode
    subst hnode
    have hupstream : f.error = .upstreamError origin := herror
    rcases hfails.cause with hlocal | ⟨hschema, hhandles, e, hbare, -⟩
    · rw [hupstream] at hlocal
      cases hlocal
    · refine ⟨Node.equipped_iff.2 ⟨hschema, hhandles⟩, e, List.mem_of_find?_eq_some hbare, ?_⟩
      simpa using List.find?_some hbare
  · rintro ⟨hequipped, e, he, hnone⟩
    obtain ⟨hschema, hhandles⟩ := Node.equipped_iff.1 hequipped
    cases hbare : firstBare? g.results (g.incoming id) with
    | none =>
      have hall := firstBare?_eq_none_iff.1 hbare e he
      rw [hnone] at hall
      cases hall
    | some first =>
      have hfails : node.Fails (g.incoming id) g.results (inherited g.results first) :=
        .upstream hschema hhandles hbare
      exact ⟨_, Recomputation.inherits_of_blockage (blockage_of_fails hmem hcycle hfails) rfl⟩

/-! ## The way back to the origin -/

/-- An inherited failure came over an edge without a shape, from the origin of its source's failure
or else from the source. -/
theorem exists_bare_of_inherits (h : g.recompute.Inherits id origin) :
    ∃ e ∈ g.incoming id, carried? g.results e = none ∧
      origin = ((g.recompute.blockage? e.source).bind Blockage.origin?).getD e.source := by
  obtain ⟨blockage, hblockage, herror⟩ := Option.map_eq_some_iff.1 h
  obtain ⟨node, f, -, hfails, rfl⟩ := fails_of_blockage hblockage (not_reportsCycle_of_inherits h)
  have hupstream : f.error = .upstreamError origin := herror
  rcases hfails.cause with hlocal | ⟨-, -, e, hbare, rfl⟩
  · rw [hupstream] at hlocal
    cases hlocal
  · refine ⟨e, List.mem_of_find?_eq_some hbare, by simpa using List.find?_some hbare, ?_⟩
    exact (ShapeError.upstreamError.inj hupstream).symm

/-- **An inherited failure is traced to its origin.** The origin fails for a reason of its own, and
every node on the way from there inherits this very failure. -/
theorem inherits_traces (h : g.recompute.Inherits id origin) :
    (∃ blockage, g.recompute.blockage? origin = some blockage ∧ blockage.error.isLocal = true) ∧
      TransGen (fun a b => g.Feeds a b ∧ g.recompute.Inherits b origin) origin id := by
  have hacc : Acc g.Feeds id :=
    not_not.1 fun hn => not_reportsCycle_of_inherits h (reportsCycle_iff_not_acc.2 hn)
  -- the induction goes back along the edges without a shape
  induction hacc with
  | intro id _ ih =>
    obtain ⟨e, he, hbare, horigin⟩ := exists_bare_of_inherits h
    have hedge : g.Feeds e.source id := linked_of_incoming he
    have hsource : ¬ g.recompute.ReportsCycle e.source :=
      not_reportsCycle_source (not_reportsCycle_of_inherits h) e he
    have hactive := (mem_incoming.1 he).1
    obtain ⟨blockage, hblockage⟩ :=
      Option.isSome_iff_exists.1 ((carried?_eq_none_iff hactive).1 hbare)
    rw [hblockage, Option.bind_some] at horigin
    cases horiginOf : blockage.origin? with
    | some further =>
      -- the source inherits its failure too, and passes its origin on
      have hfurther : origin = further := by rw [horigin, horiginOf, Option.getD_some]
      subst hfurther
      have hinherits : g.recompute.Inherits e.source origin :=
        Recomputation.inherits_of_blockage hblockage (Blockage.origin?_eq_some_iff.1 horiginOf)
      obtain ⟨hlocal, hpath⟩ := ih e.source hedge hinherits
      exact ⟨hlocal, hpath.tail ⟨hedge, h⟩⟩
    | none =>
      -- the source is the origin, and no cycle is behind it
      have hstart : origin = e.source := by rw [horigin, horiginOf, Option.getD_none]
      subst hstart
      refine ⟨⟨blockage, hblockage, ?_⟩, TransGen.single ⟨hedge, h⟩⟩
      refine Blockage.isLocal_of_origin?_eq_none horiginOf fun hcycle => hsource ?_
      rw [Recomputation.ReportsCycle, hblockage, Option.map_some, hcycle]

/-- A blocked node blocks every node that it feeds. -/
theorem blocked_of_feeds {a b : NodeId} (ha : (g.recompute.blockage? a).isSome)
    (hab : g.Feeds a b) : (g.recompute.blockage? b).isSome := by
  obtain ⟨e, he, rfl⟩ := linked_incoming hab
  obtain ⟨hactive, rfl⟩ := mem_incoming.1 he
  by_contra hb
  have hcarries := (fits_of_mem_activeEdges hactive).target_carriesTensors
  have hcycle : ¬ g.recompute.ReportsCycle e.target := by
    intro hcycle
    obtain ⟨blockage, hblockage, -⟩ := Option.map_eq_some_iff.1 hcycle
    rw [hblockage] at hb
    exact hb rfl
  obtain ⟨node, hnode⟩ := hcarries
  obtain ⟨shape, hshape⟩ : ∃ shape, g.recompute.shape? e.target = some shape := by
    rw [← Option.ne_none_iff_exists']
    exact fun hnone => hb ((isSome_blockage?_iff ⟨node, hnode⟩).2 hnone)
  -- a node with a shape was evaluated on shapes of all its sources
  rw [shape?_eq_some_iff (mem_tensorNodes_iff.2 hnode) hcycle, Node.outputShape_eq_ok_iff] at hshape
  have hcarried := hshape.2.2.1 e he
  rw [(carried?_eq_none_iff hactive).2 ha] at hcarried
  cases hcarried

theorem blocked_of_reflTransGen {a b : NodeId} (ha : (g.recompute.blockage? a).isSome)
    (hab : ReflTransGen g.Feeds a b) : (g.recompute.blockage? b).isSome := by
  induction hab with
  | refl => exact ha
  | tail _ hbc ih => exact blocked_of_feeds ih hbc

/-- **Failures are traced.** An inherited failure names a node that fails for a reason of its own,
and from there a path of active edges leads to the node that inherits it, all behind the origin
inheriting the same. A node with nothing amiss with itself and no cycle behind it inherits a failure
iff a source of its active edges is blocked. So what a blocked node feeds is blocked. -/
theorem failures_are_traced (g : Graph) (id : NodeId) :
    (∀ origin, g.recompute.Inherits id origin →
      (∃ blockage, g.recompute.blockage? origin = some blockage ∧
        blockage.error.isLocal = true) ∧
      TransGen (fun a b => g.Feeds a b ∧ g.recompute.Inherits b origin) origin id) ∧
    (∀ node, (id, node) ∈ g.tensorNodes → ¬ g.recompute.ReportsCycle id →
      node.Equipped (g.incoming id) →
        ((∃ origin, g.recompute.Inherits id origin) ↔
          ∃ e ∈ g.incoming id, (g.recompute.blockage? e.source).isSome = true)) ∧
    ((g.recompute.blockage? id).isSome = true →
      ∀ b, ReflTransGen g.Feeds id b → (g.recompute.blockage? b).isSome = true) := by
  refine ⟨fun origin h => inherits_traces h, fun node hmem hcycle hequipped => ?_, ?_⟩
  · rw [inherits_iff hmem hcycle, and_iff_right hequipped]
    refine exists_congr fun e => and_congr_right fun he => ?_
    exact carried?_eq_none_iff (mem_incoming.1 he).1
  · intro hblocked b hpath
    exact blocked_of_reflTransGen hblocked hpath

end Graph

end ShapeFlow
