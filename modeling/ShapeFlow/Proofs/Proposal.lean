import ShapeFlow.Proofs.Extension
import ShapeFlow.Proofs.Judgement

/-!
# Judgements come true

A proposal is judged on the last computation, and then made an edge, behind all others, of the graph
that is computed again.

* `Proposal.arrivals_committed`: **the judgement asks the rule of the target about the very inputs
  that are then gathered**, unless the target comes to lie behind a cycle.
* `Proposal.not_blamed`: an accepted edge is blamed for no failure of its target.
* `Proposal.accepted_edge_resolves`: an accepted edge carries the shape it was accepted for, unless
  its source has none or it closes a cycle.
* `Proposal.rejected_edge_blocks`: a rejected edge is ignored or its target is blocked.
-/

namespace ShapeFlow.Proposal

open Relation ShapeFlow.Graph

variable {g : Graph} {p : Proposal} {id : EdgeId} {source target : Node} {handle : InputHandle}
  {shape : Shape}

/-- **The inputs of a judgement are those that are gathered.** -/
theorem arrivals_committed (hids : (g.edges.map (·.id)).Nodup)
    (hactive : g.neglect? g.activeEdges (p.edge id) = none)
    (hcycle : ¬ (g.withEdge (p.edge id)).recompute.ReportsCycle p.target)
    (hshape : g.recompute.shape? p.source = some shape) :
    arrivals (g.withEdge (p.edge id)).results ((g.withEdge (p.edge id)).incoming p.target) =
      (peers g g.recompute p.target).push p.targetHandle shape := by
  rw [peers_recompute hids]
  exact arrivals_withEdge hactive hcycle hshape

/-- Among the edges into the target, the new one is known by its id. -/
theorem eq_edge_of_id (hid : id ∉ g.edges.map (·.id))
    (hactive : g.neglect? g.activeEdges (p.edge id) = none) {e : Edge}
    (he : e ∈ (g.withEdge (p.edge id)).incoming p.target) (heq : e.id = id) : e = p.edge id := by
  have hmem := (mem_incoming.1 he).1
  rw [activeEdges_withEdge_of_active hactive] at hmem
  rcases List.mem_append.1 hmem with hold | hnew
  · exact absurd (List.mem_map.2 ⟨e, mem_edges_of_mem_activeEdges hold, heq⟩) hid
  · exact List.mem_singleton.1 hnew

theorem countP_committed (hactive : g.neglect? g.activeEdges (p.edge id) = none) :
    ((g.withEdge (p.edge id)).incoming p.target).countP (·.targetHandle == p.targetHandle) =
      (g.incoming p.target).countP (·.targetHandle == p.targetHandle) + 1 :=
  countP_incoming_withEdge hactive

/-- The handle of a proposal is free iff no edge is counted there. -/
theorem countP_eq_zero_iff :
    (g.incoming p.target).countP (·.targetHandle == p.targetHandle) = 0 ↔
      ∀ e ∈ g.activeEdges, e.target = p.target → e.targetHandle ≠ p.targetHandle := by
  simp only [List.countP_eq_zero, mem_incoming, and_imp, beq_iff_eq, ne_eq]

/-- **An accepted edge that carries a shape is blamed for no failure of its target**, whatever the
failure is. -/
theorem not_blamed
    (h : p.Passes g (g.recompute.shape? p.source) (peers g g.recompute p.target) source target handle)
    (hids : (g.edges.map (·.id)).Nodup) (hid : id ∉ g.edges.map (·.id))
    (hactive : g.neglect? g.activeEdges (p.edge id) = none)
    (hcycle : ¬ (g.withEdge (p.edge id)).recompute.ReportsCycle p.target)
    (hshape : g.recompute.shape? p.source = some shape) {f : Failure}
    (hfails : target.Fails ((g.withEdge (p.edge id)).incoming p.target)
      (g.withEdge (p.edge id)).results f) :
    id ∉ blamedEdges f ((g.withEdge (p.edge id)).incoming p.target)
      (g.withEdge (p.edge id)).results := by
  intro hblamed
  obtain ⟨e, he, heq, hhandle, hbare⟩ := mem_blamedEdges hblamed
  obtain rfl := eq_edge_of_id hid hactive he heq
  have hentry : f.handle = some p.targetHandle := hhandle
  cases hfails with
  | settings => cases hentry
  | handles _ hhandles =>
    obtain ⟨other, hother, ⟨hnone, rfl⟩ | ⟨hseveral, hsingle, rfl⟩⟩ :=
      checkHandles_eq_error hhandles
    · -- the new edge enters there
      obtain hname : other.name = p.targetHandle := Option.some.inj hentry
      rw [hname, List.countP_eq_zero] at hnone
      exact hnone _ he (by simp [Proposal.edge])
    · -- only a free handle takes an edge
      obtain hname : other.name = p.targetHandle := Option.some.inj hentry
      have hsame : handle = other := by
        have hinput := Block.input?_of_mem hother
        rw [hname, h.input] at hinput
        exact Option.some.inj hinput
      subst hsame
      rcases h.free with hmerges | hfree
      · rw [hsingle] at hmerges
        cases hmerges
      · rw [hname, countP_committed hactive, countP_eq_zero_iff.2 hfree] at hseveral
        omega
  | upstream =>
    have hcarried := carried?_withEdge hactive hcycle _ he
    rw [hbare _ rfl] at hcarried
    exact Option.some_ne_none shape (hshape.symm.trans hcarried.symm)
  | rule hschema _ _ hrule =>
    rw [arrivals_committed hids hactive hcycle hshape] at hrule
    have hspared := Block.checkCandidate_eq_ok_iff.1 (h.rule shape hshape) hschema f hrule
    obtain ⟨name, hmissing⟩ := Block.missingInput_of_not_blamesInput hspared (by rw [hentry]; rfl)
    -- no input is missing where the new edge enters
    obtain ⟨hdefault, hempty⟩ :=
      (Block.rule_fault _ _ _ f hrule).all_eq_nil_of_missingInput hmissing
    rw [hentry, Option.some.injEq] at hdefault
    rw [← hdefault, all_push_self] at hempty
    simp at hempty

/-- The verdict on the edge of a proposal that is taken into account. -/
theorem get?_committed (hid : id ∉ g.edges.map (·.id))
    (hactive : g.neglect? g.activeEdges (p.edge id) = none) :
    (g.withEdge (p.edge id)).recompute.edges.get? id =
      some (activeVerdict (g.withEdge (p.edge id)).results (p.edge id)) := by
  have hverdict := get?_edges_withEdge (g := g) (e := p.edge id) hid
  rw [edge_id, hactive] at hverdict
  exact hverdict

/-- An edge that closes a cycle is inactive. -/
theorem inactive_of_reached (hactive : g.neglect? g.activeEdges (p.edge id) = none)
    (hreached : ReflTransGen g.Feeds p.target p.source) :
    activeVerdict (g.withEdge (p.edge id)).results (p.edge id) = .inactive := by
  have hcyclic := get?_of_reportsCycle (reportsCycle_withEdge hactive hreached).1
  apply activeVerdict_of_bare
  rw [carried?, hcyclic]
  rfl

/-- An accepted edge carries the shape that it was accepted for, cycle or not behind its target. -/
theorem ok_of_passes
    (h : p.Passes g (g.recompute.shape? p.source) (peers g g.recompute p.target) source target handle)
    (hids : (g.edges.map (·.id)).Nodup) (hid : id ∉ g.edges.map (·.id))
    (hactive : g.neglect? g.activeEdges (p.edge id) = none)
    (hreached : ¬ ReflTransGen g.Feeds p.target p.source)
    (hshape : g.recompute.shape? p.source = some shape) :
    activeVerdict (g.withEdge (p.edge id)).results (p.edge id) = .ok shape := by
  refine activeVerdict_of_carried ?_ fun blockage hblockage => ?_
  · rw [carried?_results, edge_source, shape?_withEdge_of_not_reached hreached, hshape]
  · rw [edge_target] at hblockage
    by_cases hcycle : (g.withEdge (p.edge id)).recompute.ReportsCycle p.target
    · -- a node behind a cycle blames no edge
      rw [get?_of_reportsCycle hcycle] at hblockage
      cases hblockage
      exact List.not_mem_nil
    · have hvalue := result_of_mem_activeEdges (mem_activeEdges_withEdge hactive) h.targetNode hcycle
      rw [edge_target] at hvalue
      rw [hvalue, Option.bind_some] at hblockage
      obtain ⟨f, hfails, rfl⟩ := Node.evaluate_blockage? hblockage
      exact not_blamed h hids hid hactive hcycle hshape hfails

/-- **An accepted edge resolves once made.** Its verdict is inactive if its source was blocked or is
fed by its target; in every other case it carries the shape that its source had. It is never
invalid. -/
theorem accepted_edge_resolves (g : Graph) (p : Proposal) (id : EdgeId)
    (hids : (g.edges.map (·.id)).Nodup) (hid : id ∉ g.edges.map (·.id))
    (haccept : judgeAgainst g g.recompute p = .ok ())
    (hnew : ∀ e ∈ g.activeEdges, e.sameConnection (p.edge id) = false) :
    ((g.recompute.blockage? p.source).isSome = true ∨ ReflTransGen g.Feeds p.target p.source →
      (g.withEdge (p.edge id)).recompute.edges.get? id = some .inactive) ∧
    (¬ ((g.recompute.blockage? p.source).isSome = true ∨
        ReflTransGen g.Feeds p.target p.source) →
      ∃ shape, g.recompute.shape? p.source = some shape ∧
        (g.withEdge (p.edge id)).recompute.edges.get? id = some (.ok shape)) ∧
    ∀ code message,
      (g.withEdge (p.edge id)).recompute.edges.get? id ≠ some (.invalid code message) := by
  obtain ⟨source, target, handle, hpasses⟩ := judgeWith_eq_ok_iff.1 haccept
  have hactive : g.neglect? g.activeEdges (p.edge id) = none :=
    neglect?_eq_none_iff.2 ⟨hpasses.fits id, hnew⟩
  have hblocked := isSome_blockage?_iff (hpasses.fits id).source_carriesTensors
  rw [edge_source] at hblocked
  rw [get?_committed hid hactive]
  by_cases hreached : ReflTransGen g.Feeds p.target p.source
  · simp [inactive_of_reached hactive hreached, hreached]
  · cases hshape : g.recompute.shape? p.source with
    | none =>
      have hbare : carried? (g.withEdge (p.edge id)).results (p.edge id) = none := by
        rw [carried?_results, edge_source, shape?_withEdge_of_not_reached hreached, hshape]
      simp [activeVerdict_of_bare hbare, hblocked.2 hshape]
    | some shape =>
      have hresolved : ¬ (g.recompute.blockage? p.source).isSome = true := by
        rw [hblocked, hshape]
        exact Option.some_ne_none shape
      simp [ok_of_passes hpasses hids hid hactive hreached hshape, hresolved, hreached]

/-- A sum that the first of two texts enters, and an image beside it. -/
def summed : Graph :=
  ((((Graph.empty.insert "first" ⟨.textInput, Table.empty⟩).insert "second"
    ⟨.textInput, Table.empty⟩).insert "image" ⟨.input, Table.empty⟩).insert "sum"
      ⟨.add, Table.empty⟩).withEdge ⟨"e", "first", "out", "sum", "in"⟩

/-- The second text is accepted at the sum, and arrives there. -/
theorem accepted_edge_resolves_second :
    judgeAgainst summed summed.recompute ⟨"second", "out", "sum", "in"⟩ = .ok () ∧
      (summed.withEdge (edge ⟨"second", "out", "sum", "in"⟩ "new")).recompute.edges.get? "new" =
        some (.ok ⟨[.known 128]⟩) := by
  have haccept : judgeAgainst summed summed.recompute ⟨"second", "out", "sum", "in"⟩ = .ok () := by
    decide +kernel
  have hreached : ¬ ReflTransGen summed.Feeds "sum" "second" := by
    intro h
    rcases ReflTransGen.cases_head h with heq | ⟨next, ⟨e, he, hs, -⟩, -⟩
    · exact absurd heq (by decide)
    · have hnone : ∀ e ∈ summed.activeEdges, e.source ≠ "sum" := by decide +kernel
      exact hnone e he hs
  have hresolved : ¬ (summed.recompute.blockage? "second").isSome = true := by decide +kernel
  obtain ⟨shape, hshape, hverdict⟩ :=
    (accepted_edge_resolves summed ⟨"second", "out", "sum", "in"⟩ "new" (by decide) (by decide)
      haccept (by decide +kernel)).2.1 (not_or.2 ⟨hresolved, hreached⟩)
  have hcomputed : summed.recompute.shape? "second" = some ⟨[.known 128]⟩ := by decide +kernel
  obtain rfl : (⟨[.known 128]⟩ : Shape) = shape := Option.some.inj (hcomputed.symm.trans hshape)
  exact ⟨haccept, hverdict⟩

/-! ## Rejection -/

/-- **A proposal whose edge is taken into account by a target that has a shape passes every
check.** -/
theorem passes_of_resolved (hids : (g.edges.map (·.id)).Nodup)
    (hactive : g.neglect? g.activeEdges (p.edge id) = none)
    (hresolved : ((g.withEdge (p.edge id)).recompute.blockage? p.target).isSome = false) :
    ∃ source target handle,
      p.Passes g (g.recompute.shape? p.source) (peers g g.recompute p.target) source target handle := by
  obtain ⟨source, target, handle, hsource, htarget, houtput, hinput⟩ :=
    (neglect?_eq_none_iff.1 hactive).1
  rw [edge_target] at htarget
  have hmem := mem_activeEdges_withEdge hactive
  have hcycle : ¬ (g.withEdge (p.edge id)).recompute.ReportsCycle p.target := by
    intro h
    obtain ⟨blockage, hblockage, -⟩ := Option.map_eq_some_iff.1 h
    rw [hblockage] at hresolved
    cases hresolved
  have hcarries := (fits_of_mem_activeEdges hmem).target_carriesTensors
  obtain ⟨out, hout⟩ : ∃ out, (g.withEdge (p.edge id)).recompute.shape? p.target = some out := by
    rw [← Option.ne_none_iff_exists']
    intro hnone
    have hblocked := (isSome_blockage?_iff hcarries).2 hnone
    exact Bool.noConfusion (hresolved.symm.trans hblocked)
  -- the target has a shape, so every check of the computation passes
  have hvalue := result_of_mem_activeEdges hmem htarget hcycle
  rw [edge_target] at hvalue
  rw [shape?_recompute, hvalue, Option.bind_some, Node.evaluate_shape?_eq_some_iff,
    Node.outputShape_eq_ok_iff] at hout
  obtain ⟨-, hhandles, -, hrule⟩ := hout
  obtain ⟨hhandle, hname⟩ := Block.mem_inputs_of_input? hinput
  refine ⟨source, target, handle, hsource, htarget, houtput, hinput, ?_, ?_, ?_⟩
  · -- a second edge at a handle that does not merge would be a conflict
    rcases (checkHandles_eq_ok_iff.1 hhandles handle hhandle).2 with hle | hmerges
    · rw [hname] at hle
      rw [edge_targetHandle, countP_committed hactive] at hle
      exact Or.inr (countP_eq_zero_iff.1 (by omega))
    · exact Or.inl hmerges
  · -- a loop would put the target on a cycle
    intro hself
    have hloop : ReflTransGen g.Feeds p.target p.source := by rw [hself]
    exact hcycle (reportsCycle_withEdge hactive hloop).2
  · -- the rule is asked about the same inputs, and does not fail on them
    intro shape hcarried
    rw [Block.checkCandidate_eq_ok_iff, ← arrivals_committed hids hactive hcycle hcarried]
    intro _ f hf
    rw [hrule] at hf
    cases hf

/-- **A rejected edge would not have helped.** Once made, it is ignored or its target is blocked,
whatever the proposal was rejected for. -/
theorem rejected_edge_blocks (g : Graph) (p : Proposal) (id : EdgeId)
    (hids : (g.edges.map (·.id)).Nodup) (hid : id ∉ g.edges.map (·.id)) (error : ShapeError)
    (hreject : judgeAgainst g g.recompute p = .error error) :
    (∃ code, (g.withEdge (p.edge id)).recompute.edges.get? id = some (.ignored code)) ∨
      ((g.withEdge (p.edge id)).recompute.blockage? p.target).isSome = true := by
  cases hneglect : g.neglect? g.activeEdges (p.edge id) with
  | some neglect =>
    left
    have hverdict := get?_edges_withEdge (g := g) (e := p.edge id) hid
    rw [edge_id, hneglect] at hverdict
    exact ⟨neglect.code, hverdict⟩
  | none =>
    right
    by_contra hresolved
    have haccept : judgeAgainst g g.recompute p = .ok () :=
      judgeWith_eq_ok_iff.2 (passes_of_resolved hids hneglect (Bool.eq_false_iff.2 hresolved))
    rw [hreject] at haccept
    cases haccept

/-- The image is rejected at the sum for its shape, and would block it. -/
theorem rejected_edge_blocks_image :
    judgeAgainst summed summed.recompute ⟨"image", "out", "sum", "in"⟩ =
        .error (.shapeMismatch ⟨[.known 128]⟩ ⟨[.known 1, .known 28, .known 28]⟩) ∧
      ((summed.withEdge (edge ⟨"image", "out", "sum", "in"⟩ "new")).recompute.blockage?
        "sum").isSome = true := by
  have hreject : judgeAgainst summed summed.recompute ⟨"image", "out", "sum", "in"⟩ =
      .error (.shapeMismatch ⟨[.known 128]⟩ ⟨[.known 1, .known 28, .known 28]⟩) := by
    decide +kernel
  refine ⟨hreject, ?_⟩
  rcases rejected_edge_blocks summed ⟨"image", "out", "sum", "in"⟩ "new" (by decide) (by decide) _
    hreject with ⟨code, hignored⟩ | hblocked
  · have hverdict : (summed.withEdge
        (edge ⟨"image", "out", "sum", "in"⟩ "new")).recompute.edges.get? "new" =
          some (.invalid .shapeMismatch "input shapes differ: [128] vs [1, 28, 28]") := by
      decide +kernel
    rw [hverdict] at hignored
    cases hignored
  · exact hblocked

end ShapeFlow.Proposal
