import ShapeFlow.Proofs.Merge
import ShapeFlow.Proofs.Upstream

/-!
# The order of the edges

* `Edge.unnamed`: what an edge connects. Of the edges that connect the same, one is active,
  whichever comes first.
* `Block.rule_perm`: the answer of a rule does not depend on the order in which its inputs arrive.
* `Graph.recompute_withEdges`: **the order of the edges of a graph** changes neither the shapes nor
  the kinds of failure.
-/

namespace ShapeFlow

open List Relation

/-! ## Inputs in another order -/

theorem eq_of_perm_of_length_le_one {α : Type} {xs ys : List α} (h : xs.Perm ys)
    (hle : xs.length ≤ 1) : xs = ys := by
  match xs, hle with
  | [], _ => exact h.nil_eq
  | [x], _ => exact List.singleton_perm.1 h

namespace Inputs

variable {inputs others : Inputs}

theorem all_perm (h : inputs.arrivals.Perm others.arrivals) (handle : String) :
    (inputs.all handle).Perm (others.all handle) :=
  (h.filter _).map _

/-- A handle with a single shape has it in any order. -/
theorem first?_perm {handle : String} (h : inputs.arrivals.Perm others.arrivals)
    (hle : (inputs.all handle).length ≤ 1) : inputs.first? handle = others.first? handle := by
  rw [first?, first?, eq_of_perm_of_length_le_one (all_perm h handle) hle]

end Inputs

namespace Rule

variable {inputs others : Inputs} {settings : Settings} {out : Shape}

/-- A sum is the least shape above its inputs, which has no order. -/
theorem add_perm (h : inputs.arrivals.Perm others.arrivals) :
    add inputs = .ok out ↔ add others = .ok out := by
  rw [add_eq_ok_iff, add_eq_ok_iff]
  exact Shape.joins_congr fun _ => (Inputs.all_perm h _).mem_iff

theorem Lays.perm {axis : Nat} {shapes shapes' : List Shape} (hperm : shapes.Perm shapes')
    (h : Lays axis shapes out) : Lays axis shapes' out where
  opened := (Shape.joins_congr fun _ => (hperm.map _).mem_iff).1 h.opened
  entry := by rw [h.entry, (hperm.map _).foldl_eq]

/-- Along the axis the sizes are added up, and sums have no order. -/
theorem concat_perm (h : inputs.arrivals.Perm others.arrivals) :
    concat settings inputs = .ok out ↔ concat settings others = .ok out := by
  have hall := Inputs.all_perm h Block.defaultInput
  simp only [concat_eq_ok_iff, hall.mem_iff]
  refine exists_congr fun wanted => exists_congr fun axis => ?_
  refine and_congr_right fun _ => and_congr_right fun _ => ?_
  exact ⟨Lays.perm hall, Lays.perm hall.symm⟩

theorem single_perm (h : inputs.arrivals.Perm others.arrivals)
    (hle : (inputs.all Block.defaultInput).length ≤ 1) : single inputs = single others := by
  rw [single, single, Inputs.first?_perm h hle]

/-- Attention has one shape at a handle, and takes its handles in an order of its own. -/
theorem attention_perm (h : inputs.arrivals.Perm others.arrivals)
    (hle : ∀ handle ∈ attentionHandles, (inputs.all handle).length ≤ 1) :
    attention settings inputs = attention settings others := by
  have hconnected : attentionInputs inputs = attentionInputs others :=
    List.filterMap_congr fun handle hhandle => by
      rw [Inputs.first?_perm h (hle handle hhandle)]
  rw [attention, attention, hconnected]

end Rule

/-- **A rule does not depend on the order of its inputs**, if a handle that takes one input has one
at most. -/
theorem Block.rule_perm (block : Block) (params : Params) {inputs others : Inputs} {out : Shape}
    (h : inputs.arrivals.Perm others.arrivals)
    (hle : ∀ handle ∈ block.inputs, handle.merges = false →
      (inputs.all handle.name).length ≤ 1) :
    block.rule params inputs = .ok out ↔ block.rule params others = .ok out := by
  have hsingle : ⟨defaultInput, false⟩ ∈ block.inputs → Rule.single inputs = Rule.single others :=
    fun hmem => Rule.single_perm h (hle _ hmem rfl)
  cases block with
  | input => rfl
  | textInput => rfl
  | board => rfl
  | add => exact Rule.add_perm h
  | concat => exact Rule.concat_perm h
  | attention =>
    have hhandles : attention.inputs = Rule.attentionHandles.map (⟨·, false⟩) := rfl
    have hfirst : ∀ name ∈ Rule.attentionHandles, (inputs.all name).length ≤ 1 := by
      intro name hname
      exact hle ⟨name, false⟩ (hhandles ▸ List.mem_map_of_mem hname) rfl
    simp only [rule, Rule.attention_perm h hfirst]
  | _ => simp only [rule, hsingle List.mem_cons_self]

/-! ## Edges in another order -/

/-- What an edge connects: its ends with their handles, without its id. -/
def Edge.unnamed (e : Edge) : Edge := { e with id := "" }

theorem Edge.sameConnection_iff {a b : Edge} :
    a.sameConnection b = true ↔ a.unnamed = b.unnamed := by
  simp [sameConnection, unnamed, and_assoc]

/-- The edges of two lists connect the same, in any order. -/
def SameConnections (edges others : List Edge) : Prop :=
  (edges.map Edge.unnamed).Perm (others.map Edge.unnamed)

namespace SameConnections

variable {edges others : List Edge}

theorem exists_iff (h : SameConnections edges others) {P : Edge → Prop}
    (hP : ∀ e, P e.unnamed ↔ P e) : (∃ e ∈ edges, P e) ↔ ∃ e ∈ others, P e := by
  have hunnamed : ∀ edges : List Edge, (∃ e ∈ edges, P e) ↔ ∃ e ∈ edges.map Edge.unnamed, P e := by
    intro edges
    simp only [List.mem_map, exists_exists_and_eq_and, hP]
  rw [hunnamed, hunnamed others]
  exact exists_congr fun e => and_congr_left fun _ => h.mem_iff

theorem linked_iff (h : SameConnections edges others) {a b : NodeId} :
    Linked edges a b ↔ Linked others a b :=
  h.exists_iff fun _ => Iff.rfl

theorem edgesInto (h : SameConnections edges others) (id : NodeId) :
    SameConnections (Graph.edgesInto edges id) (Graph.edgesInto others id) := by
  have hunnamed : ∀ edges : List Edge, (Graph.edgesInto edges id).map Edge.unnamed =
      (edges.map Edge.unnamed).filter (·.target == id) := by
    intro edges
    rw [List.filter_map]
    rfl
  unfold SameConnections
  rw [hunnamed, hunnamed]
  exact h.filter _

/-- Whether a handle is met is a matter of connections, and not of the order or the names of edges.
-/
theorem checkHandles_eq (h : SameConnections edges others) (handles : List InputHandle) :
    checkHandles edges handles = checkHandles others handles := by
  have hcount : ∀ name : String,
      edges.countP (·.targetHandle == name) = others.countP (·.targetHandle == name) := by
    intro name
    have hmapped := h.countP_eq (·.targetHandle == name)
    rwa [List.countP_map, List.countP_map] at hmapped
  induction handles with
  | nil => rfl
  | cons handle rest ih => simp only [checkHandles, hcount, ih]

theorem arrivals_perm (h : SameConnections edges others) (results : Table Result) :
    (arrivals results edges).arrivals.Perm (arrivals results others).arrivals := by
  have hunnamed : ∀ edges, (arrivals results edges).arrivals =
      (arrivals results (edges.map Edge.unnamed)).arrivals := by
    intro edges
    unfold arrivals
    rw [List.filterMap_map]
    rfl
  rw [hunnamed, hunnamed others]
  exact h.filterMap _

end SameConnections

/-- **A node has an output shape whatever the order of the edges into it.** -/
theorem Node.outputShape_reordered {node : Node} {incoming others : List Edge}
    {results results' : Table Result} {shape : Shape} (h : SameConnections incoming others)
    (hcarried : ∀ e ∈ incoming, carried? results e = carried? results' e) :
    node.outputShape incoming results = .ok shape ↔
      node.outputShape others results' = .ok shape := by
  have harrivals : arrivals results incoming = arrivals results' incoming :=
    congrArg Inputs.mk (List.filterMap_congr fun e he => by rw [hcarried e he])
  have hall : (∀ e ∈ incoming, (carried? results e).isSome) ↔
      ∀ e ∈ others, (carried? results' e).isSome := by
    have hbare := h.exists_iff (P := fun e => carried? results' e = none) fun _ => Iff.rfl
    have hsame : (∀ e ∈ incoming, (carried? results e).isSome) ↔
        ∀ e ∈ incoming, (carried? results' e).isSome :=
      forall₂_congr fun e he => by rw [hcarried e he]
    rw [hsame]
    simp only [Option.isSome_iff_ne_none]
    simpa using not_congr hbare
  rw [outputShape_eq_ok_iff, outputShape_eq_ok_iff, h.checkHandles_eq, hall, harrivals]
  refine and_congr_right fun _ => and_congr_right fun hhandles => and_congr_right fun _ => ?_
  refine Block.rule_perm _ _ (h.arrivals_perm results') fun handle hhandle hmerges => ?_
  -- one edge at the handle carries one shape at most
  rw [← h.checkHandles_eq] at hhandles
  have hcount := (checkHandles_eq_ok_iff.1 hhandles handle hhandle).2
  rw [hmerges, List.countP_eq_length_filter] at hcount
  rw [all_arrivals]
  exact (List.length_filterMap_le ..).trans (hcount.resolve_right Bool.false_ne_true)

namespace Graph

variable {g : Graph} {edges active : List Edge} {id : NodeId}

/-- The graph with other edges. -/
def withEdges (g : Graph) (edges : List Edge) : Graph := { g with edges := edges }

theorem carriesTensors_withEdges : (g.withEdges edges).CarriesTensors id ↔ g.CarriesTensors id :=
  Iff.rfl

theorem sameBlocks_withEdges : g.SameBlocks (g.withEdges edges) := fun _ => rfl

/-- What is connected by active edges is what fitting edges connect. -/
theorem mem_unnamed_activeFrom {c : Edge} (xs : List Edge) :
    c ∈ (g.activeFrom active xs).map Edge.unnamed ↔
      c ∈ active.map Edge.unnamed ∨ ∃ x ∈ xs, g.Fits x ∧ x.unnamed = c := by
  induction xs generalizing active with
  | nil => simp [activeFrom]
  | cons x xs ih =>
    simp only [activeFrom, List.mem_cons, or_and_right, exists_or, exists_eq_left]
    split
    · next neglect hneglect =>
      have hold : g.Fits x ∧ x.unnamed = c → c ∈ active.map Edge.unnamed := by
        rintro ⟨hfits, rfl⟩
        by_contra hnew
        have hactive : g.neglect? active x = none := by
          refine neglect?_eq_none_iff.2 ⟨hfits, fun a ha => ?_⟩
          rw [Bool.eq_false_iff, Ne, Edge.sameConnection_iff]
          exact fun hsame => hnew (hsame ▸ List.mem_map_of_mem ha)
        rw [hactive] at hneglect
        cases hneglect
      rw [ih]
      tauto
    · next hnone =>
      have hfits := (neglect?_eq_none_iff.1 hnone).1
      rw [ih, List.map_append, List.mem_append, List.map_singleton, List.mem_singleton]
      tauto

/-- No two active edges make the same connection. -/
theorem nodup_unnamed_activeFrom (xs : List Edge) (h : (active.map Edge.unnamed).Nodup) :
    ((g.activeFrom active xs).map Edge.unnamed).Nodup := by
  induction xs generalizing active with
  | nil => exact h
  | cons x xs ih =>
    rw [activeFrom]
    split
    · exact ih h
    · next hnone =>
      refine ih ?_
      rw [List.map_append, List.map_singleton, ← List.concat_eq_append]
      refine (List.nodup_concat _ _).2 ⟨fun hmem => ?_, h⟩
      obtain ⟨a, ha, hsame⟩ := List.mem_map.1 hmem
      have hnew := (neglect?_eq_none_iff.1 hnone).2 a ha
      rw [Edge.sameConnection_iff.2 hsame] at hnew
      cases hnew

/-- **The active edges connect the same, whatever the order of the edges.** -/
theorem activeEdges_withEdges (h : edges.Perm g.edges) :
    SameConnections (g.withEdges edges).activeEdges g.activeEdges := by
  have hactive : (g.withEdges edges).activeEdges = g.activeFrom [] edges :=
    activeFrom_congr sameBlocks_withEdges edges
  rw [hactive]
  have hnodup : ∀ xs, ((g.activeFrom [] xs).map Edge.unnamed).Nodup := fun xs =>
    nodup_unnamed_activeFrom xs List.nodup_nil
  refine (List.perm_ext_iff_of_nodup (hnodup edges) (hnodup g.edges)).2 fun c => ?_
  rw [mem_unnamed_activeFrom, mem_unnamed_activeFrom]
  simp only [h.mem_iff]

theorem incoming_withEdges (h : edges.Perm g.edges) (id : NodeId) :
    SameConnections ((g.withEdges edges).incoming id) (g.incoming id) :=
  (activeEdges_withEdges h).edgesInto id

theorem reportsCycle_withEdges (h : edges.Perm g.edges) :
    (g.withEdges edges).recompute.ReportsCycle id ↔ g.recompute.ReportsCycle id := by
  have hfeeds : (g.withEdges edges).Feeds = g.Feeds :=
    funext fun a => funext fun b => propext (activeEdges_withEdges h).linked_iff
  rw [reportsCycle_iff_not_acc, reportsCycle_iff_not_acc, hfeeds]

/-- **Every node has the same output shape**, whatever the order of the edges. -/
theorem shape?_withEdges (h : edges.Perm g.edges) (id : NodeId) :
    (g.withEdges edges).recompute.shape? id = g.recompute.shape? id := by
  by_cases hcycle : g.recompute.ReportsCycle id
  · rw [shape?_of_reportsCycle hcycle,
      shape?_of_reportsCycle ((reportsCycle_withEdges h).2 hcycle)]
  have hacc : Acc g.Feeds id := not_not.1 fun hn => hcycle (reportsCycle_iff_not_acc.2 hn)
  -- the induction goes along the edges: the sources of both evaluations have the same shapes
  induction hacc with
  | intro id hbefore ih =>
    by_cases hcarries : g.CarriesTensors id
    · obtain ⟨node, hnode⟩ := hcarries
      have hmem := mem_tensorNodes_iff.2 hnode
      have hmem' : (id, node) ∈ (g.withEdges edges).tensorNodes := hmem
      have hcycle' : ¬ (g.withEdges edges).recompute.ReportsCycle id :=
        fun hn => hcycle ((reportsCycle_withEdges h).1 hn)
      have hsources : ∀ e ∈ (g.withEdges edges).incoming id,
          carried? (g.withEdges edges).results e = carried? g.results e := by
        intro e he
        have hfeeds : g.Feeds e.source id :=
          (activeEdges_withEdges h).linked_iff.1 (linked_of_incoming he)
        rw [carried?_results, carried?_results]
        refine ih e.source hfeeds fun hn => hcycle ?_
        exact reportsCycle_of_reflTransGen hn (ReflTransGen.single hfeeds)
      refine Option.ext fun shape => ?_
      rw [shape?_eq_some_iff hmem' hcycle', shape?_eq_some_iff hmem hcycle]
      exact Node.outputShape_reordered (incoming_withEdges h id) hsources
    · have hcarries' : ¬ (g.withEdges edges).CarriesTensors id :=
        mt carriesTensors_withEdges.1 hcarries
      rw [Recomputation.shape?, Recomputation.shape?, get?_eq_none_iff.2 hcarries,
        get?_eq_none_iff.2 hcarries']

/-- A node is resolved or blocked in any order of the edges. -/
theorem state_withEdges (h : edges.Perm g.edges) (id : NodeId) :
    ((g.withEdges edges).recompute.nodes.get? id).map Result.state =
      (g.recompute.nodes.get? id).map Result.state := by
  have hshape := shape?_withEdges h id
  have hnone : (g.withEdges edges).recompute.nodes.get? id = none ↔
      g.recompute.nodes.get? id = none := by
    rw [get?_eq_none_iff, get?_eq_none_iff, carriesTensors_withEdges]
  -- a node has a result in both or in neither, and a result is resolved iff it has a shape
  unfold Recomputation.shape? at hshape
  generalize (g.withEdges edges).recompute.nodes.get? id = x at hshape hnone ⊢
  generalize g.recompute.nodes.get? id = y at hshape hnone ⊢
  rcases x with _ | _ | _ <;> rcases y with _ | _ | _ <;>
    simp_all [Result.shape?, Result.state]

theorem carriesTensors_of_inherits {origin : NodeId} (h : g.recompute.Inherits id origin) :
    g.CarriesTensors id := by
  obtain ⟨blockage, hblockage, -⟩ := Option.map_eq_some_iff.1 h
  exact carriesTensors_of_blocked (by rw [hblockage]; rfl)

theorem inherits_withEdges (h : edges.Perm g.edges) (id : NodeId) :
    (∃ origin, (g.withEdges edges).recompute.Inherits id origin) ↔
      ∃ origin, g.recompute.Inherits id origin := by
  by_cases hevaluated : g.CarriesTensors id ∧ ¬ g.recompute.ReportsCycle id
  · obtain ⟨⟨node, hnode⟩, hcycle⟩ := hevaluated
    have hmem := mem_tensorNodes_iff.2 hnode
    have hmem' : (id, node) ∈ (g.withEdges edges).tensorNodes := hmem
    have hcycle' := mt (reportsCycle_withEdges h).1 hcycle
    have hincoming := incoming_withEdges h id
    rw [inherits_iff hmem hcycle, inherits_iff hmem' hcycle', Node.equipped_iff, Node.equipped_iff,
      hincoming.checkHandles_eq]
    refine and_congr_right fun _ => ?_
    simp only [carried?_results, shape?_withEdges h]
    exact hincoming.exists_iff fun _ => Iff.rfl
  · -- without an evaluation there is nothing to inherit
    constructor
    · rintro ⟨origin, horigin⟩
      refine absurd ⟨carriesTensors_withEdges.1 (carriesTensors_of_inherits horigin), ?_⟩ hevaluated
      exact mt (reportsCycle_withEdges h).2 (not_reportsCycle_of_inherits horigin)
    · rintro ⟨origin, horigin⟩
      exact absurd ⟨carriesTensors_of_inherits horigin, not_reportsCycle_of_inherits horigin⟩
        hevaluated

/-- **The order of the edges does not matter.** The same edges in another order, whichever copy of a
repeated connection comes first, lead to the same state and the same output shape of every node. The
same nodes are reported to be behind cycles, and the same nodes inherit a failure. -/
theorem recompute_withEdges (g : Graph) (edges : List Edge) (h : edges.Perm g.edges) (id : NodeId) :
    ((g.withEdges edges).recompute.nodes.get? id).map Result.state =
      (g.recompute.nodes.get? id).map Result.state ∧
    (g.withEdges edges).recompute.shape? id = g.recompute.shape? id ∧
    ((g.withEdges edges).recompute.ReportsCycle id ↔ g.recompute.ReportsCycle id) ∧
    ((∃ origin, (g.withEdges edges).recompute.Inherits id origin) ↔
      ∃ origin, g.recompute.Inherits id origin) :=
  ⟨state_withEdges h id, shape?_withEdges h id, reportsCycle_withEdges h, inherits_withEdges h id⟩

/-- Two texts laid end to end, one of them connected twice. -/
def laid : Graph :=
  let text (length : Double) : Node := ⟨.textInput, Table.empty.insert "seq_len" (.number length)⟩
  ⟨Table.ofList [("a", text 10), ("b", text 20), ("joined", ⟨.concat, Table.empty⟩)],
    [⟨"first", "a", "out", "joined", "in"⟩, ⟨"second", "b", "out", "joined", "in"⟩,
      ⟨"again", "a", "out", "joined", "in"⟩], []⟩

/-- The second text first, and the other copy of the repeated connection. -/
theorem recompute_withEdges_laid :
    laid.edges.reverse.Perm laid.edges ∧
      (laid.withEdges laid.edges.reverse).recompute.shape? "joined" = some ⟨[.known 30]⟩ := by
  have hperm : laid.edges.reverse.Perm laid.edges := List.reverse_perm _
  have hsame := (recompute_withEdges laid laid.edges.reverse hperm "joined").2.1
  refine ⟨hperm, hsame.trans ?_⟩
  decide +kernel

end Graph

end ShapeFlow
