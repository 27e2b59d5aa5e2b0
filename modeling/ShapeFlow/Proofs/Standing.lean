import ShapeFlow.Proofs.Equations
import ShapeFlow.Proofs.Persistence

/-!
# Conflicts that stood before a proposal

A proposal is judged by the rule of its target, on all shapes that are at hand there. The rule does
not tell whom it would blame, so a conflict between inputs that were connected before speaks against
the proposal, too.

* `Proposal.RefusedByRule`: the rule of the target blames one of the shapes at hand and the
  candidate. What is refused otherwise is refused for its ends.
* `Proposal.not_ofProposal_iff`: the error tells the one from the other.
* `Block.several_of_refuses`: the blocks that can be in conflict without the candidate.
* `Proposal.refused_for_its_own_shape`: **what a rule refuses was not in conflict before**, unless
  the target is blocked already and takes nothing whose shape is known.
-/

namespace ShapeFlow

/-- Objections to the ends of a proposal, which are made before the rule of the target is asked. -/
def ShapeError.OfProposal : ShapeError → Prop
  | .unknownNode _ | .handleUnavailable .. | .selfConnection _ => True
  | _ => False

/-- No rule objects to the ends of a proposal. -/
theorem Rule.Fault.not_ofProposal {inputs : Inputs} {f : Failure} (h : Fault inputs f) :
    ¬ f.error.OfProposal := by
  cases h with
  | setting h =>
    obtain ⟨key, reason, rfl⟩ := h
    exact id
  | shape _ h => cases h <;> exact id
  | dataset | missing | sum | joint => exact id

namespace Block

variable {block : Block} {params : Params} {inputs : Inputs} {handle : InputHandle}

/-- Where another input is still to come and shapes at hand are blamed, the block has several
inputs or one that merges. -/
theorem several_of_refuses (hrefuses : Rule.Refuses (block.rule params inputs))
    (hhandle : handle ∈ block.inputs)
    (hfree : handle.merges = true ∨ inputs.all handle.name = []) :
    block ∈ [attention, add, concat] := by
  have hsingle : handle ∈ [InputHandle.mk defaultInput false] →
      Rule.single inputs = .error (Rule.missing defaultInput) := by
    intro hmem
    obtain rfl := List.mem_singleton.1 hmem
    have hempty : inputs.all defaultInput = [] := hfree.resolve_left Bool.false_ne_true
    rw [Rule.single, Inputs.first?, hempty]
    rfl
  cases block with
  | attention | add | concat => decide
  | input | textInput | board => cases hhandle
  | _ =>
    simp only [rule, hsingle hhandle] at hrefuses
    exact absurd hrefuses (Rule.not_refuses_missing _)

end Block

namespace Proposal

variable {g : Graph} {p : Proposal} {shape? : Option Shape} {arrived : Inputs} {e : ShapeError}
  {target : Node} {id : NodeId}

/-- **The rule refuses a proposal**: its ends fit the target's free input, and of the shapes at hand
with the one at the source the rule blames some input. -/
structure RefusedByRule (g : Graph) (p : Proposal) (shape? : Option Shape) (arrived : Inputs)
    (target : Node) (handle : InputHandle) (e : ShapeError) : Prop where
  targetNode : g.node? p.target = some target
  input : target.block.input? p.targetHandle = some handle
  free : handle.merges = true ∨
    ∀ a ∈ g.activeEdges, a.target = p.target → a.targetHandle ≠ p.targetHandle
  rule : ∃ shape f, shape? = some shape ∧ f.error = e ∧
    target.block.checkCandidate target.params (arrived.push p.targetHandle shape) = .error f

theorem lookup_error {id : NodeId} (h : lookup g id = .error e) : e.OfProposal := by
  unfold lookup at h
  split at h
  · cases h
  · cases h
    trivial

theorem checkOutput_error {source : Node} (h : p.checkOutput source = .error e) :
    e.OfProposal := by
  unfold checkOutput at h
  split at h
  · cases h
  · cases h
    trivial

theorem checkInput_error (h : checkInput g p target = .error e) : e.OfProposal := by
  unfold checkInput at h
  split at h
  · cases h
    trivial
  · split at h
    · cases h
    · split at h
      · cases h
        trivial
      · cases h

/-- A refusal that is no objection to the ends comes from the rule. -/
theorem refusedByRule_of_error (h : judgeWith g p shape? arrived = .error e)
    (hrule : ¬ e.OfProposal) : ∃ target handle, p.RefusedByRule g shape? arrived target handle e := by
  unfold judgeWith at h
  rcases bind_eq_error_iff.1 h with h | ⟨source, -, h⟩
  · exact absurd (lookup_error h) hrule
  rcases bind_eq_error_iff.1 h with h | ⟨target, htarget, h⟩
  · exact absurd (lookup_error h) hrule
  rcases bind_eq_error_iff.1 h with h | ⟨_, -, h⟩
  · exact absurd (checkOutput_error h) hrule
  rcases bind_eq_error_iff.1 h with h | ⟨_, hinput, h⟩
  · exact absurd (checkInput_error h) hrule
  obtain ⟨handle, hhandle, hfree⟩ := checkInput_eq_ok_iff.1 hinput
  by_cases hself : p.source = p.target
  · rw [if_pos hself] at h
    cases h
    exact absurd trivial hrule
  · rw [if_neg hself] at h
    cases hshape : shape? with
    | none =>
      rw [hshape] at h
      cases h
    | some shape =>
      rw [hshape] at h
      refine ⟨target, handle, lookup_eq_ok_iff.1 htarget, hhandle, hfree, shape, ?_⟩
      cases hcheck : target.block.checkCandidate target.params
          (arrived.push p.targetHandle shape) with
      | ok =>
        simp only [hcheck] at h
        cases h
      | error f =>
        simp only [hcheck] at h
        exact ⟨f, rfl, Except.error.inj h, rfl⟩

/-- **The error tells who refuses**: it is an objection to the ends, or the rule's. -/
theorem not_ofProposal_iff (h : judgeWith g p shape? arrived = .error e) :
    ¬ e.OfProposal ↔ ∃ target handle, p.RefusedByRule g shape? arrived target handle e := by
  refine ⟨refusedByRule_of_error h, ?_⟩
  rintro ⟨target, handle, hrefused⟩
  obtain ⟨shape, f, -, rfl, hcheck⟩ := hrefused.rule
  obtain ⟨-, hfails, -⟩ := Block.checkCandidate_eq_error_iff.1 hcheck
  exact (Block.rule_fault _ _ _ f hfails).not_ofProposal

/-- No active edge enters a handle: no shape is at hand there. -/
theorem all_peers_eq_nil (hids : (g.edges.map (·.id)).Nodup) {name : String}
    (hfree : ∀ e ∈ g.activeEdges, e.target = id → e.targetHandle ≠ name) :
    (peers g g.recompute id).all name = [] := by
  have hnone : (g.incoming id).filter (·.targetHandle == name) = [] := by
    rw [List.filter_eq_nil_iff]
    intro e he
    obtain ⟨hactive, htarget⟩ := Graph.mem_incoming.1 he
    simpa using hfree e hactive htarget
  rw [peers_recompute hids, all_arrivals, hnone]
  rfl

/-- A node whose rule blames one of the shapes at hand is blocked, whatever else is amiss. -/
theorem blocked_of_refuses (hids : (g.edges.map (·.id)).Nodup) (hnode : g.node? id = some target)
    (htensors : target.block.carriesTensors = true)
    (hrefuses : Rule.Refuses (target.block.rule target.params (peers g g.recompute id))) :
    (g.recompute.blockage? id).isSome := by
  have hcarries : g.CarriesTensors id := ⟨target, hnode, htensors⟩
  rw [Graph.isSome_blockage?_iff hcarries]
  by_cases hcycle : g.recompute.ReportsCycle id
  · exact Graph.shape?_of_reportsCycle hcycle
  · rw [Option.eq_none_iff_forall_ne_some]
    intro shape hshape
    rw [Graph.shape?_eq_some_iff (Graph.mem_tensorNodes_iff.2 ⟨hnode, htensors⟩) hcycle,
      Node.outputShape_eq_ok_iff] at hshape
    obtain ⟨-, -, -, hrule⟩ := hshape
    rw [peers_recompute hids, hrule] at hrefuses
    exact Rule.not_refuses_ok shape hrefuses

/-- Where the shapes at hand are in conflict, nothing is accepted whose shape is known. -/
theorem refused_of_conflict {last : Recomputation} {q : Proposal} {f : Failure}
    (hnode : g.node? q.target = some target)
    (hconflict : target.block.checkCandidate target.params (peers g last q.target) =
      .error f) (hshape : (last.shape? q.source).isSome) : judgeAgainst g last q ≠ .ok () := by
  intro haccept
  obtain ⟨source, target', handle, h⟩ := judgeWith_eq_ok_iff.1 haccept
  obtain ⟨shape, hshape⟩ := Option.isSome_iff_exists.1 hshape
  have hsame : target' = target := Option.some.inj (h.targetNode.symm.trans hnode)
  subst hsame
  obtain ⟨f', hcheck, -⟩ :=
    Block.checkCandidate_persists (Inputs.extends_push _ q.targetHandle shape) hconflict
  rw [h.rule shape hshape] at hcheck
  cases hcheck

/-- **What a rule refuses was not in conflict before.** A proposal that is refused for its shape
goes to a target that accepts the shapes at hand without it. The exception are blocks with several
inputs, or with one that merges, whose inputs do not agree as they are: then the target is blocked
already, and every proposal to it is refused whose shape is known. -/
theorem refused_for_its_own_shape (g : Graph) (hids : (g.edges.map (·.id)).Nodup) (p : Proposal)
    (e : ShapeError) (h : judgeAgainst g g.recompute p = .error e) (hrule : ¬ e.OfProposal) :
    ∃ target, g.node? p.target = some target ∧
      (target.block.checkCandidate target.params (peers g g.recompute p.target) = .ok () ∨
        target.block ∈ [.attention, .add, .concat] ∧ (g.recompute.blockage? p.target).isSome ∧
          ∀ q : Proposal, q.target = p.target → (g.recompute.shape? q.source).isSome →
            judgeAgainst g g.recompute q ≠ .ok ()) := by
  obtain ⟨target, handle, hrefused⟩ := (not_ofProposal_iff h).1 hrule
  refine ⟨target, hrefused.targetNode, ?_⟩
  cases hconflict : target.block.checkCandidate target.params (peers g g.recompute p.target) with
  | ok => exact Or.inl rfl
  | error f =>
    right
    obtain ⟨-, hfails, hblames⟩ := Block.checkCandidate_eq_error_iff.1 hconflict
    have hrefuses : Rule.Refuses (target.block.rule target.params (peers g g.recompute p.target)) :=
      ⟨f, hfails, hblames⟩
    obtain ⟨hhandle, hname⟩ := Block.mem_inputs_of_input? hrefused.input
    have hseveral : target.block ∈ [.attention, .add, .concat] := by
      refine Block.several_of_refuses hrefuses hhandle (hrefused.free.imp_right fun hfree => ?_)
      rw [hname]
      exact all_peers_eq_nil hids hfree
    have htensors : target.block.carriesTensors = true := by
      revert hseveral
      cases target.block <;> decide
    refine ⟨hseveral, blocked_of_refuses hids hrefused.targetNode htensors hrefuses, ?_⟩
    intro q hq hshape
    have hnode : g.node? q.target = some target := hq ▸ hrefused.targetNode
    have hagain : target.block.checkCandidate target.params (peers g g.recompute q.target) =
        .error f := hq ▸ hconflict
    exact refused_of_conflict hnode hagain hshape

end Proposal

/-- Texts of two lengths that enter a sum, and one that does not. -/
def Graph.divided : Graph :=
  let text (length : Double) : Node := ⟨.textInput, Table.empty.insert "seq_len" (.number length)⟩
  ⟨Table.ofList [("a", text 64), ("b", text 32), ("c", text 64), ("sum", ⟨.add, Table.empty⟩)],
    [⟨"first", "a", "out", "sum", "in"⟩, ⟨"second", "b", "out", "sum", "in"⟩], []⟩

namespace Proposal

open ShapeFlow.Graph

/-- The third text is refused for the conflict between the first and the second. -/
theorem refused_for_a_standing_conflict :
    (divided.edges.map (·.id)).Nodup ∧
      judgeAgainst divided divided.recompute ⟨"c", "out", "sum", "in"⟩ =
        .error (.shapeMismatch ⟨[.known 64]⟩ ⟨[.known 32]⟩) ∧
      divided.node? "sum" = some ⟨.add, .empty⟩ ∧
      Block.add.checkCandidate .empty (peers divided divided.recompute "sum") =
        .error (.atPosition "in" 1 (.shapeMismatch ⟨[.known 64]⟩ ⟨[.known 32]⟩)) :=
  ⟨by decide +kernel, by decide +kernel, rfl, by decide +kernel⟩

/-- The sum of the two lengths takes nothing whose shape is known. -/
theorem refused_for_its_own_shape_divided : (divided.recompute.blockage? "sum").isSome ∧
    ∀ q : Proposal, q.target = "sum" → (divided.recompute.shape? q.source).isSome →
      judgeAgainst divided divided.recompute q ≠ .ok () := by
  have hids : (divided.edges.map (·.id)).Nodup := by decide +kernel
  have hrefused : judgeAgainst divided divided.recompute ⟨"c", "out", "sum", "in"⟩ =
      .error (.shapeMismatch ⟨[.known 64]⟩ ⟨[.known 32]⟩) := by decide +kernel
  have hsum : divided.node? "sum" = some ⟨.add, .empty⟩ := rfl
  have hconflict : Block.add.checkCandidate .empty (peers divided divided.recompute "sum") ≠
      .ok () := by decide +kernel
  obtain ⟨target, htarget, haccepts | ⟨-, hblocked, hall⟩⟩ :=
    refused_for_its_own_shape divided hids _ _ hrefused fun h => h
  · obtain rfl := Option.some.inj (hsum.symm.trans htarget)
    exact absurd haccepts hconflict
  · exact ⟨hblocked, hall⟩

end Proposal

end ShapeFlow
