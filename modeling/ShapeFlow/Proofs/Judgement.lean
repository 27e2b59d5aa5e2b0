import ShapeFlow.Flow.Proposal
import ShapeFlow.Proofs.Fault
import ShapeFlow.Proofs.Verdict

/-!
# What a judgement asks for

* `Proposal.Passes`: the checks of a judgement, as one condition on the graph, the shape at the
  source and the shapes at the target.
* `Proposal.judgeWith_eq_ok_iff`: **a proposal is accepted iff it passes them.**
* `Proposal.peers_recompute`: the shapes that a judgement finds at the target are the inputs that
  the last computation gathered there.
-/

namespace ShapeFlow

namespace Block

variable {block : Block} {params : Params} {inputs : Inputs} {f : Failure}

/-- The inputs of a block have names of their own. -/
theorem input?_of_mem {handle : InputHandle} (h : handle ∈ block.inputs) :
    block.input? handle.name = some handle := by
  revert handle
  cases block <;> decide

theorem mem_inputs_of_input? {name : String} {handle : InputHandle}
    (h : block.input? name = some handle) : handle ∈ block.inputs ∧ handle.name = name :=
  ⟨List.mem_of_find?_eq_some h, by simpa using List.find?_some h⟩

/-- A candidate is refused iff its rule blames one of the shapes at hand. -/
theorem checkCandidate_eq_ok_iff :
    block.checkCandidate params inputs = .ok () ↔
      (Param.checkSchema block.schema params = .ok () →
        ∀ f, block.rule params inputs = .error f → blamesInput f = false) := by
  unfold checkCandidate
  cases Param.checkSchema block.schema params with
  | error => simp
  | ok =>
    cases block.rule params inputs with
    | ok => simp
    | error f => cases h : blamesInput f <;> simp [h]

/-- A failure at a handle that blames no input is about an input that is still open. -/
theorem missingInput_of_not_blamesInput (h : blamesInput f = false) (hhandle : f.handle.isSome) :
    ∃ name, f.error = .missingInput name := by
  unfold blamesInput at h
  rw [hhandle, Bool.true_and] at h
  split at h
  · next name hname => exact ⟨name, hname⟩
  · cases h

end Block

namespace Proposal

variable {g : Graph} {p : Proposal} {id : EdgeId} {shape? : Option Shape} {peers : Inputs}

@[simp] theorem edge_id : (p.edge id).id = id := rfl

@[simp] theorem edge_source : (p.edge id).source = p.source := rfl

@[simp] theorem edge_target : (p.edge id).target = p.target := rfl

@[simp] theorem edge_targetHandle : (p.edge id).targetHandle = p.targetHandle := rfl

/-- **The checks of a judgement**, given the ends of the proposal and its input handle. -/
structure Passes (g : Graph) (p : Proposal) (shape? : Option Shape) (peers : Inputs)
    (source target : Node) (handle : InputHandle) : Prop where
  sourceNode : g.node? p.source = some source
  targetNode : g.node? p.target = some target
  output : source.block.hasOutput p.sourceHandle = true
  input : target.block.input? p.targetHandle = some handle
  free : handle.merges = true ∨
    ∀ e ∈ g.activeEdges, e.target = p.target → e.targetHandle ≠ p.targetHandle
  apart : p.source ≠ p.target
  rule : ∀ shape, shape? = some shape →
    target.block.checkCandidate target.params (peers.push p.targetHandle shape) = .ok ()

theorem lookup_eq_ok_iff {id : NodeId} {node : Node} :
    lookup g id = .ok node ↔ g.node? id = some node := by
  unfold lookup
  cases g.node? id <;> simp

theorem checkOutput_eq_ok_iff {source : Node} :
    p.checkOutput source = .ok () ↔ source.block.hasOutput p.sourceHandle = true := by
  unfold checkOutput
  split <;> simp_all

theorem checkInput_eq_ok_iff {target : Node} :
    checkInput g p target = .ok () ↔ ∃ handle, target.block.input? p.targetHandle = some handle ∧
      (handle.merges = true ∨
        ∀ e ∈ g.activeEdges, e.target = p.target → e.targetHandle ≠ p.targetHandle) := by
  unfold checkInput
  cases target.block.input? p.targetHandle with
  | none => simp
  | some handle =>
    cases hmerges : handle.merges with
    | true => simp [hmerges]
    | false =>
      simp only [hmerges, Bool.false_eq_true, ↓reduceIte, Option.some.injEq, exists_eq_left',
        false_or]
      split
      · next occupant hfound =>
        have hoccupies := List.find?_some hfound
        simp only [Bool.and_eq_true, beq_iff_eq] at hoccupies
        simp only [reduceCtorEq, false_iff]
        intro hfree
        exact hfree occupant (List.mem_of_find?_eq_some hfound) hoccupies.1 hoccupies.2
      · next hnone =>
        simpa using hnone

/-- **A proposal is accepted iff it passes every check.** -/
theorem judgeWith_eq_ok_iff :
    judgeWith g p shape? peers = .ok () ↔
      ∃ source target handle, p.Passes g shape? peers source target handle := by
  constructor
  · intro h
    unfold judgeWith at h
    obtain ⟨source, hsource, h⟩ := bind_eq_ok_iff.1 h
    obtain ⟨target, htarget, h⟩ := bind_eq_ok_iff.1 h
    obtain ⟨⟨⟩, houtput, h⟩ := bind_eq_ok_iff.1 h
    obtain ⟨⟨⟩, hinput, h⟩ := bind_eq_ok_iff.1 h
    obtain ⟨handle, hhandle, hfree⟩ := checkInput_eq_ok_iff.1 hinput
    by_cases hself : p.source = p.target
    · rw [if_pos hself] at h
      cases h
    · rw [if_neg hself] at h
      refine ⟨source, target, handle, lookup_eq_ok_iff.1 hsource, lookup_eq_ok_iff.1 htarget,
        checkOutput_eq_ok_iff.1 houtput, hhandle, hfree, hself, ?_⟩
      rintro shape rfl
      cases hcheck : target.block.checkCandidate target.params
          (peers.push p.targetHandle shape) with
      | ok => rfl
      | error f =>
        simp only [hcheck] at h
        cases h
  · rintro ⟨source, target, handle, h⟩
    unfold judgeWith
    rw [lookup_eq_ok_iff.2 h.sourceNode, ok_bind, lookup_eq_ok_iff.2 h.targetNode, ok_bind,
      checkOutput_eq_ok_iff.2 h.output, ok_bind,
      checkInput_eq_ok_iff.2 ⟨handle, h.input, h.free⟩, ok_bind, if_neg h.apart]
    cases shape? with
    | none => rfl
    | some shape =>
      change (target.block.checkCandidate target.params
        (peers.push p.targetHandle shape)).mapError (·.error) = .ok ()
      rw [h.rule shape rfl]
      rfl

/-- The edge of a proposal that passes fits the graph. -/
theorem Passes.fits {source target : Node} {handle : InputHandle}
    (h : p.Passes g shape? peers source target handle) (id : EdgeId) : g.Fits (p.edge id) :=
  ⟨source, target, handle, h.sourceNode, h.targetNode, h.output, h.input⟩

/-- The shapes at a node by the last computation are the inputs that were gathered there. -/
theorem peers_recompute (hids : (g.edges.map (·.id)).Nodup) (id : NodeId) :
    Proposal.peers g g.recompute id = arrivals g.results (g.incoming id) :=
  congrArg Inputs.mk (Graph.arrivals_incoming hids id).symm

end Proposal

end ShapeFlow
