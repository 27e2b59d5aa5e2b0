import ShapeFlow.Flow.Recompute
import ShapeFlow.Proofs.Account
import ShapeFlow.Proofs.Active
import ShapeFlow.Proofs.Evaluate
import ShapeFlow.Proofs.Fault
import ShapeFlow.Proofs.Sweep
import ShapeFlow.Proofs.Table

/-!
# The results of a graph solve its equations

* `Graph.Solves`: the equations. A node behind a cycle has the result of such nodes, and every other
  node is evaluated on the finished table.
* `Graph.solves_resultsIn`: any order of visits that respects the edges leads to a solution.
* `Graph.Solves.unique`: there is one solution at most.
* `Graph.recompute_solves_uniquely`: **the computed results are the solution, whatever the order of
  the visits.**
-/

namespace ShapeFlow

open Relation

/-- A node is reported to lie inside or downstream of a cycle. -/
def Recomputation.ReportsCycle (r : Recomputation) (id : NodeId) : Prop :=
  (r.blockage? id).map (·.error) = some .cycleDetected

instance (r : Recomputation) (id : NodeId) : Decidable (r.ReportsCycle id) :=
  inferInstanceAs (Decidable (_ = _))

/-- A node fails for a reason of its own, or once nothing else is amiss for want of a shape. -/
theorem Node.Fails.cause {node : Node} {incoming : List Edge} {results : Table Result} {f : Failure}
    (h : node.Fails incoming results f) :
    f.error.isLocal = true ∨
      Param.checkSchema node.block.schema node.params = .ok () ∧
      checkHandles incoming node.block.inputs = .ok () ∧
      ∃ e, firstBare? results incoming = some e ∧ f = inherited results e := by
  cases h with
  | settings hschema =>
    obtain ⟨key, reason, rfl⟩ := Param.checkSchema_error hschema
    exact Or.inl rfl
  | handles _ hhandles =>
    obtain ⟨handle, -, ⟨-, rfl⟩ | ⟨-, -, rfl⟩⟩ := checkHandles_eq_error hhandles
    · exact Or.inl rfl
    · exact Or.inl rfl
  | upstream hschema hhandles hbare => exact Or.inr ⟨hschema, hhandles, _, hbare, rfl⟩
  | rule _ _ _ hrule => exact Or.inl (Block.rule_fault _ _ _ f hrule).error_isLocal

/-- An evaluated node is never reported to be behind a cycle. -/
theorem Node.evaluate_ne_cycleDetected (node : Node) (incoming : List Edge)
    (results : Table Result) :
    (node.evaluate incoming results).blockage?.map (·.error) ≠ some .cycleDetected := by
  intro h
  obtain ⟨blockage, hblockage, herror⟩ := Option.map_eq_some_iff.1 h
  obtain ⟨f, hfails, rfl⟩ := Node.evaluate_blockage? hblockage
  have hcycle : f.error = .cycleDetected := herror
  rcases hfails.cause with hlocal | ⟨-, -, e, -, rfl⟩
  · rw [hcycle] at hlocal
    cases hlocal
  · cases hcycle

namespace Graph

variable {g : Graph} {behind : NodeId → Prop} {order stuck : List NodeId} {s t : Table Result}
  {id : NodeId} {node : Node}

/-! ## The sweep of a graph -/

theorem tensorIds_ascending (g : Graph) : (g.tensorNodes.map (·.1)).Pairwise (· < ·) :=
  List.pairwise_map.2 (g.nodes.ascending.filter _)

theorem tensorIds_nodup (g : Graph) : (g.tensorNodes.map (·.1)).Nodup :=
  g.tensorIds_ascending.imp fun h => String.ne_of_lt h

theorem source_mem_tensorIds : ∀ e ∈ g.activeEdges, e.source ∈ g.tensorNodes.map (·.1) :=
  fun _ he => mem_tensorIds_iff.2 (fits_of_mem_activeEdges he).source_carriesTensors

theorem mem_order_visited : id ∈ g.order.1 ↔ g.CarriesTensors id ∧ Acc g.Feeds id := by
  rw [← mem_tensorIds_iff]
  exact mem_sweep_visited g.tensorIds_nodup source_mem_tensorIds

theorem mem_order_stuck : id ∈ g.order.2 ↔ g.CarriesTensors id ∧ ¬ Acc g.Feeds id := by
  rw [← mem_tensorIds_iff]
  exact mem_sweep_stuck g.tensorIds_nodup source_mem_tensorIds

/-- What is not well founded is the target of an active edge. -/
theorem carriesTensors_of_not_acc (h : ¬ Acc g.Feeds id) : g.CarriesTensors id := by
  obtain ⟨a, -, e, he, -, rfl⟩ := exists_not_acc_lt_of_not_acc h
  exact (fits_of_mem_activeEdges he).target_carriesTensors

theorem mem_incoming {e : Edge} : e ∈ g.incoming id ↔ e ∈ g.activeEdges ∧ e.target = id := by
  simp [incoming, edgesInto]

theorem linked_of_incoming {e : Edge} (he : e ∈ g.incoming id) : g.Feeds e.source id := by
  obtain ⟨hactive, rfl⟩ := mem_incoming.1 he
  exact linked_of_mem hactive

/-! ## Equations -/

/-- **The equations of a graph**, given the nodes behind cycles. -/
structure Solves (g : Graph) (behind : NodeId → Prop) (t : Table Result) : Prop where
  names : t.names = g.tensorNodes.map (·.1)
  stuck : ∀ id, g.CarriesTensors id → behind id → t.get? id = some cyclic
  evaluated : ∀ id node, (id, node) ∈ g.tensorNodes → ¬ behind id →
    t.get? id = some (node.evaluate (g.incoming id) t)

theorem Solves.isSome_iff (h : g.Solves behind t) : (t.get? id).isSome ↔ g.CarriesTensors id := by
  rw [← Table.mem_names_iff, h.names, mem_tensorIds_iff]

/-- **There is one solution at most.** The sources of a node come before it in the induction. -/
theorem Solves.unique (hacc : ∀ id, ¬ behind id → Acc g.Feeds id) (hs : g.Solves behind s)
    (ht : g.Solves behind t) : s = t := by
  refine Table.ext_get? fun id => ?_
  by_cases hid : g.CarriesTensors id
  · by_cases hb : behind id
    · rw [hs.stuck id hid hb, ht.stuck id hid hb]
    · -- the induction goes along the edges: equal sources give equal results
      have hwf := hacc id hb
      induction hwf with
      | intro id _ ih =>
        obtain ⟨node, hnode⟩ := hid
        have hmem := mem_tensorNodes_iff.2 hnode
        rw [hs.evaluated id node hmem hb, ht.evaluated id node hmem hb]
        refine congrArg some (Node.evaluate_congr (fun e he => ?_) node)
        obtain ⟨hactive, rfl⟩ := mem_incoming.1 he
        have hsource := (fits_of_mem_activeEdges hactive).source_carriesTensors
        by_cases hbs : behind e.source
        · rw [hs.stuck _ hsource hbs, ht.stuck _ hsource hbs]
        · exact ih e.source (linked_of_mem hactive) hsource hbs
  · have hnone : ∀ {t}, g.Solves behind t → t.get? id = none := fun h => by
      rw [← Option.not_isSome_iff_eq_none, h.isSome_iff]
      exact hid
    rw [hnone hs, hnone ht]

/-! ## Orders of visits -/

/-- An order of visits: the nodes that are not behind cycles, each once and after its sources. -/
structure Schedule (g : Graph) (behind : NodeId → Prop) (order : List NodeId) : Prop where
  nodup : order.Nodup
  mem_iff : ∀ id, id ∈ order ↔ g.CarriesTensors id ∧ ¬ behind id
  ordered : Ordered g.activeEdges order

/-- The results found by visits in an order, given the nodes that are stuck. -/
def resultsIn (g : Graph) (order stuck : List NodeId) : Table Result :=
  order.foldl (g.evaluateInto g.activeEdges) (Table.ofList (stuck.map (fun id => (id, cyclic))))

theorem results_eq_resultsIn (g : Graph) : g.results = g.resultsIn g.order.1 g.order.2 := rfl

/-- Visits leave the other nodes alone, and at the end every visited node has the value of its
equation: what is evaluated later is no source of it. -/
theorem get?_foldl_evaluateInto (hnodup : order.Nodup) (hordered : Ordered g.activeEdges order)
    (t : Table Result) :
    (∀ id, id ∉ order → (order.foldl (g.evaluateInto g.activeEdges) t).get? id = t.get? id) ∧
      ∀ id ∈ order, ∀ node, g.node? id = some node →
        (order.foldl (g.evaluateInto g.activeEdges) t).get? id =
          some (node.evaluate (g.incoming id) (order.foldl (g.evaluateInto g.activeEdges) t)) := by
  induction order using List.reverseRecOn with
  | nil => simp
  | append_singleton order last ih =>
    obtain ⟨hnodup, -, hdisjoint⟩ := List.nodup_append.1 hnodup
    have hlast : last ∉ order := fun h => hdisjoint last h last (by simp) rfl
    obtain ⟨hordered, hsources⟩ := ordered_append_singleton.1 hordered
    obtain ⟨hothers, hvisited⟩ := ih hnodup hordered
    rw [List.foldl_append, List.foldl_cons, List.foldl_nil]
    set before := order.foldl (g.evaluateInto g.activeEdges) t
    cases hnode : g.node? last with
    | none =>
      have hkeep : g.evaluateInto g.activeEdges before last = before := by
        simp only [evaluateInto, hnode]
      rw [hkeep]
      refine ⟨fun id hid => hothers id fun h => hid (List.mem_append_left _ h), ?_⟩
      intro id hid node hn
      rcases List.mem_append.1 hid with hid | hid
      · exact hvisited id hid node hn
      · rw [List.mem_singleton.1 hid, hnode] at hn
        cases hn
    | some lastNode =>
      have hput : g.evaluateInto g.activeEdges before last =
          before.insert last (lastNode.evaluate (g.incoming last) before) := by
        simp only [evaluateInto, hnode, incoming]
      rw [hput]
      set after := before.insert last (lastNode.evaluate (g.incoming last) before) with hafter
      have hkeep : ∀ id, id ≠ last → after.get? id = before.get? id := by
        intro id hne
        rw [hafter, Table.get?_insert, if_neg hne]
      -- no source of a visited node is visited now
      have hsame : ∀ id node, (∀ e ∈ g.activeEdges, e.target = id → e.source ∈ order) →
          Node.evaluate node (g.incoming id) before = node.evaluate (g.incoming id) after := by
        intro id node hsource
        refine Node.evaluate_congr (fun e he => ?_) node
        obtain ⟨hactive, htarget⟩ := mem_incoming.1 he
        refine (hkeep _ fun heq => ?_).symm
        exact hlast (heq ▸ hsource e hactive htarget)
      constructor
      · intro id hid
        have hne : id ≠ last := fun h => hid (by simp [h])
        rw [hkeep id hne]
        exact hothers id fun h => hid (List.mem_append_left _ h)
      · intro id hid node hn
        rcases List.mem_append.1 hid with hid | hid
        · have hne : id ≠ last := fun h => hlast (h ▸ hid)
          rw [hkeep id hne, hvisited id hid node hn, hsame id node (hordered.source_mem hid)]
        · rw [List.mem_singleton] at hid
          subst hid
          rw [hnode, Option.some.injEq] at hn
          subst hn
          rw [← hsame id lastNode hsources, hafter, Table.get?_insert, if_pos rfl]

/-- **Any order of visits that respects the edges leads to a solution.** -/
theorem solves_resultsIn (h : g.Schedule behind order)
    (hstuck : ∀ id, id ∈ stuck ↔ g.CarriesTensors id ∧ behind id) :
    g.Solves behind (g.resultsIn order stuck) := by
  obtain ⟨hothers, hvisited⟩ := get?_foldl_evaluateInto h.nodup h.ordered
    (Table.ofList (stuck.map (fun id => (id, cyclic))))
  have hout : ∀ id, id ∉ order →
      (g.resultsIn order stuck).get? id = if id ∈ stuck then some cyclic else none := by
    intro id hid
    exact (hothers id hid).trans (Table.get?_ofList_map (fun _ => cyclic) stuck id)
  refine ⟨Table.names_eq_of_mem_iff g.tensorIds_ascending fun id => ?_, ?_, ?_⟩
  · rw [mem_tensorIds_iff]
    by_cases hid : id ∈ order
    · obtain ⟨node, hnode⟩ := ((h.mem_iff id).1 hid).1
      rw [resultsIn, hvisited id hid node hnode.1]
      simpa using ⟨node, hnode⟩
    · rw [hout id hid]
      by_cases hst : id ∈ stuck
      · simpa [hst] using ((hstuck id).1 hst).1
      · have hno : ¬ g.CarriesTensors id := fun hc => by
          by_cases hb : behind id
          · exact hst ((hstuck id).2 ⟨hc, hb⟩)
          · exact hid ((h.mem_iff id).2 ⟨hc, hb⟩)
        simp [hst, hno]
  · intro id hc hb
    rw [hout id fun hid => ((h.mem_iff id).1 hid).2 hb, if_pos ((hstuck id).2 ⟨hc, hb⟩)]
  · intro id node hmem hb
    obtain ⟨hnode, hcarries⟩ := mem_tensorNodes_iff.1 hmem
    exact hvisited id ((h.mem_iff id).2 ⟨⟨node, hnode, hcarries⟩, hb⟩) node hnode

/-! ## The computed results -/

theorem schedule_order (g : Graph) : g.Schedule (fun id => ¬ Acc g.Feeds id) g.order.1 :=
  ⟨sweep_visited_nodup g.tensorIds_nodup, fun id => by rw [mem_order_visited, not_not],
    sweep_visited_ordered g.tensorIds_nodup⟩

theorem solves_results (g : Graph) : g.Solves (fun id => ¬ Acc g.Feeds id) g.results := by
  rw [results_eq_resultsIn]
  exact solves_resultsIn g.schedule_order fun _ => mem_order_stuck

/-- **A node is reported to be behind a cycle iff it is not well founded along the active edges.** -/
theorem reportsCycle_iff_not_acc : g.recompute.ReportsCycle id ↔ ¬ Acc g.Feeds id := by
  have hsolves := g.solves_results
  constructor
  · intro h hacc
    cases hresult : g.results.get? id with
    | none =>
      have hnone : g.recompute.blockage? id = none := by
        simp [Recomputation.blockage?, recompute, hresult]
      rw [Recomputation.ReportsCycle, hnone] at h
      cases h
    | some result =>
      obtain ⟨node, hnode⟩ := hsolves.isSome_iff.1 (by rw [hresult]; rfl : (g.results.get? id).isSome)
      have hvalue := hsolves.evaluated id node (mem_tensorNodes_iff.2 hnode) (not_not_intro hacc)
      have hblockage : g.recompute.blockage? id =
          (node.evaluate (g.incoming id) g.results).blockage? := by
        simp [Recomputation.blockage?, recompute, hvalue]
      rw [Recomputation.ReportsCycle, hblockage] at h
      exact node.evaluate_ne_cycleDetected _ _ h
  · intro h
    have hcyclic := hsolves.stuck id (carriesTensors_of_not_acc h) h
    simp [Recomputation.ReportsCycle, Recomputation.blockage?, recompute, hcyclic, cyclic,
      Result.blockage?]

theorem reportsCycle_eq (g : Graph) :
    g.recompute.ReportsCycle = fun id => ¬ Acc g.Feeds id :=
  funext fun _ => propext reportsCycle_iff_not_acc

theorem solves_recompute (g : Graph) : g.Solves g.recompute.ReportsCycle g.recompute.nodes := by
  rw [reportsCycle_eq]
  exact g.solves_results

theorem get?_of_reportsCycle (h : g.recompute.ReportsCycle id) :
    g.results.get? id = some cyclic :=
  g.solves_recompute.stuck id (carriesTensors_of_not_acc (reportsCycle_iff_not_acc.1 h)) h

/-- The sources of a node that is not behind a cycle are not behind one. -/
theorem not_reportsCycle_source (h : ¬ g.recompute.ReportsCycle id) :
    ∀ e ∈ g.incoming id, ¬ g.recompute.ReportsCycle e.source := by
  rw [reportsCycle_iff_not_acc, not_not] at h
  intro e he
  obtain ⟨hactive, rfl⟩ := mem_incoming.1 he
  rw [reportsCycle_iff_not_acc, not_not]
  exact h.inv (linked_of_mem hactive)

/-- The target of an active edge is evaluated, unless it is behind a cycle. -/
theorem result_of_mem_activeEdges {e : Edge} (he : e ∈ g.activeEdges)
    (hnode : g.node? e.target = some node) (h : ¬ g.recompute.ReportsCycle e.target) :
    g.results.get? e.target = some (node.evaluate (g.incoming e.target) g.results) := by
  obtain ⟨node', hnode', hcarries⟩ := (fits_of_mem_activeEdges he).target_carriesTensors
  obtain rfl : node = node' := Option.some.inj (hnode.symm.trans hnode')
  exact g.solves_recompute.evaluated _ node (mem_tensorNodes_iff.2 ⟨hnode, hcarries⟩) h

theorem shape?_recompute (g : Graph) (id : NodeId) :
    g.recompute.shape? id = (g.results.get? id).bind Result.shape? := rfl

/-- What has a result is a node that carries tensors. -/
theorem carriesTensors_of_get? {result : Result} (h : g.recompute.nodes.get? id = some result) :
    g.CarriesTensors id := by
  refine g.solves_recompute.isSome_iff.1 ?_
  rw [h]
  rfl

theorem mem_nodes_names_iff : id ∈ g.recompute.nodes.names ↔ g.CarriesTensors id := by
  rw [Table.mem_names_iff, g.solves_recompute.isSome_iff]

theorem get?_eq_none_iff : g.recompute.nodes.get? id = none ↔ ¬ g.CarriesTensors id := by
  rw [← Option.not_isSome_iff_eq_none, g.solves_recompute.isSome_iff]

theorem shape?_of_reportsCycle (h : g.recompute.ReportsCycle id) :
    g.recompute.shape? id = none := by
  rw [shape?_recompute, get?_of_reportsCycle h]
  rfl

/-- A node that is not behind a cycle has the shape of its evaluation. -/
theorem shape?_eq_some_iff {shape : Shape} (hmem : (id, node) ∈ g.tensorNodes)
    (hcycle : ¬ g.recompute.ReportsCycle id) : g.recompute.shape? id = some shape ↔
      node.outputShape (g.incoming id) g.results = .ok shape := by
  rw [Recomputation.shape?, g.solves_recompute.evaluated id node hmem hcycle, Option.bind_some]
  exact Node.evaluate_shape?_eq_some_iff

/-- What an edge carries is the shape of its source. -/
theorem carried?_results (e : Edge) : carried? g.results e = g.recompute.shape? e.source := rfl

/-- A node that carries tensors is blocked iff it has no shape. -/
theorem isSome_blockage?_iff (h : g.CarriesTensors id) :
    (g.recompute.blockage? id).isSome ↔ g.recompute.shape? id = none := by
  obtain ⟨result, hresult⟩ := Option.isSome_iff_exists.1 (g.solves_recompute.isSome_iff.2 h)
  simp only [Recomputation.blockage?, Recomputation.shape?, hresult, Option.bind_some]
  cases result <;> simp [Result.blockage?, Result.shape?]

/-- **The computed results are the one solution of the equations of a graph.** Every node that
carries tensors has one entry and nothing else has; in the account of the results, whose states,
shapes and errors are free of each other, an entry is resolved iff it has a shape and no error, and
blocked iff it has an error and no shape; a node that is not reported to be behind a cycle has the
value of its rule on the finished table, in which all of its sources stand with results of their
own. Any order of visits that respects the edges leads to the same table. -/
theorem recompute_solves_uniquely (g : Graph) :
    g.recompute.nodes.names = g.tensorNodes.map (·.1) ∧
    (∀ id result, g.recompute.nodes.get? id = some result →
      g.recompute.account.nodes.get? id = some result.full ∧
      (result.full.state = .resolved ↔
        result.full.outputShape.isSome = true ∧ result.full.error = none) ∧
      (result.full.state = .blocked ↔
        result.full.outputShape = none ∧ result.full.error.isSome = true) ∧
      (result.isResolved = true ↔ result.shape?.isSome = true ∧ result.blockage? = none)) ∧
    (∀ id node, (id, node) ∈ g.tensorNodes → ¬ g.recompute.ReportsCycle id →
      g.recompute.nodes.get? id = some (node.evaluate (g.incoming id) g.recompute.nodes) ∧
      ∀ e ∈ g.incoming id, (g.recompute.nodes.get? e.source).isSome = true ∧
        ¬ g.recompute.ReportsCycle e.source) ∧
    (∀ t, g.Solves g.recompute.ReportsCycle t ↔ t = g.recompute.nodes) ∧
    ∀ order stuck, g.Schedule g.recompute.ReportsCycle order →
      (∀ id, id ∈ stuck ↔ g.recompute.ReportsCycle id) →
        g.resultsIn order stuck = g.recompute.nodes := by
  have hsolves := g.solves_recompute
  have hacc : ∀ id, ¬ g.recompute.ReportsCycle id → Acc g.Feeds id := fun id h =>
    not_not.1 fun hn => h (reportsCycle_iff_not_acc.2 hn)
  refine ⟨hsolves.names, ?_, ?_, ?_, ?_⟩
  · intro id result hresult
    obtain ⟨hresolved, hblocked⟩ := result.full_consistent
    refine ⟨by rw [Recomputation.get?_account, hresult, Option.map_some], hresolved, hblocked, ?_⟩
    obtain ⟨hstate, hshape, herror⟩ := result.full_parts
    rw [← hstate, hresolved, hshape, herror, Option.map_eq_none_iff]
  · intro id node hmem hid
    refine ⟨hsolves.evaluated id node hmem hid, fun e he => ?_⟩
    refine ⟨hsolves.isSome_iff.2 ?_, not_reportsCycle_source hid e he⟩
    exact (fits_of_mem_activeEdges (mem_incoming.1 he).1).source_carriesTensors
  · intro t
    constructor
    · exact fun ht => ht.unique hacc hsolves
    · rintro rfl
      exact hsolves
  · intro order stuck hschedule hstuck
    refine Solves.unique hacc (solves_resultsIn hschedule fun id => ?_) hsolves
    rw [hstuck id, and_iff_right_of_imp]
    exact fun h => carriesTensors_of_not_acc (reportsCycle_iff_not_acc.1 h)

end Graph

end ShapeFlow
