import ShapeFlow.Flow.Active
import ShapeFlow.Proofs.Reach

/-!
# Active edges join nodes that carry tensors

* `Graph.Fits`: both ends of an edge exist and have its handles.
* `Graph.neglect?_eq_none_iff`: an edge is active iff it fits and repeats no active edge before it.
* `Graph.classesFrom_congr`: edges are judged by the blocks at their ends.
* `Graph.activeEdges_withEdge`, `Graph.classes_withEdge`: **one more edge behind all others changes
  no judgement on those before it.**
-/

namespace ShapeFlow.Graph

variable {g : Graph} {active : List Edge} {e : Edge}

/-- Both ends of an edge exist and have its handles. -/
def Fits (g : Graph) (e : Edge) : Prop :=
  ∃ source target handle, g.node? e.source = some source ∧ g.node? e.target = some target ∧
    source.block.hasOutput e.sourceHandle = true ∧
    target.block.input? e.targetHandle = some handle

/-- One active edge leads from one node to another. -/
abbrev Feeds (g : Graph) : NodeId → NodeId → Prop := Linked g.activeEdges

/-- An edge is active when it fits and no active edge before it makes the same connection. -/
theorem neglect?_eq_none_iff :
    g.neglect? active e = none ↔
      g.Fits e ∧ ∀ a ∈ active, a.sameConnection e = false := by
  unfold neglect? Fits
  cases hs : g.node? e.source with
  | none => simp
  | some source =>
    cases ht : g.node? e.target with
    | none => simp
    | some target =>
      cases ho : source.block.hasOutput e.sourceHandle <;>
        cases hi : target.block.input? e.targetHandle <;> simp [ho, hi]

/-- Edges are taken one by one, so a list can be cut anywhere. -/
theorem activeFrom_append (xs ys : List Edge) :
    g.activeFrom active (xs ++ ys) = g.activeFrom (g.activeFrom active xs) ys := by
  induction xs generalizing active with
  | nil => rfl
  | cons x xs ih =>
    simp only [List.cons_append, activeFrom]
    split <;> exact ih

theorem classesFrom_append (xs ys : List Edge) :
    g.classesFrom active (xs ++ ys) =
      g.classesFrom active xs ++ g.classesFrom (g.activeFrom active xs) ys := by
  induction xs generalizing active with
  | nil => rfl
  | cons x xs ih =>
    simp only [List.cons_append, activeFrom, classesFrom]
    split <;> rw [ih, List.cons_append]

/-- The judgement on the first of further edges, and those on the others in view of it. -/
theorem classesFrom_cons (x : Edge) (xs : List Edge) : g.classesFrom active (x :: xs) =
    (x, g.neglect? active x) :: g.classesFrom (g.activeFrom active [x]) xs := by
  have hone : g.classesFrom active [x] = [(x, g.neglect? active x)] := by
    unfold classesFrom
    split
    · next neglect hx => rw [hx, classesFrom]
    · next hx => rw [hx, classesFrom]
  rw [← List.singleton_append, classesFrom_append, hone, List.singleton_append]

theorem map_fst_classesFrom (edges : List Edge) :
    (g.classesFrom active edges).map (·.1) = edges := by
  induction edges generalizing active with
  | nil => rfl
  | cons x xs ih => rw [classesFrom_cons, List.map_cons, ih]

/-- An edge is neglected for what stands before it. -/
theorem exists_neglect?_of_mem_classesFrom {edges : List Edge} {neglect : Neglect}
    (h : (e, some neglect) ∈ g.classesFrom active edges) :
    e ∈ edges ∧ ∃ before, g.neglect? before e = some neglect := by
  induction edges generalizing active with
  | nil => cases h
  | cons x xs ih =>
    rw [classesFrom_cons] at h
    rcases List.mem_cons.1 h with heq | h
    · obtain ⟨rfl, hneglect⟩ := Prod.mk.inj heq
      exact ⟨List.mem_cons_self, active, hneglect.symm⟩
    · exact (ih h).imp_left (List.mem_cons_of_mem x)

/-- Each edge has one class, in the order of the edges. -/
theorem map_fst_classes : g.classes.map (·.1) = g.edges := map_fst_classesFrom g.edges

theorem activeFrom_eq_filterMap (edges : List Edge) :
    g.activeFrom active edges = active ++
      (g.classesFrom active edges).filterMap (fun c => if c.2.isNone then some c.1 else none) := by
  induction edges generalizing active with
  | nil => simp [activeFrom, classesFrom]
  | cons x xs ih =>
    simp only [activeFrom, classesFrom]
    split <;> rw [ih] <;> simp

/-- The active edges are those without an objection. -/
theorem activeEdges_eq_filterMap :
    g.activeEdges = g.classes.filterMap (fun c => if c.2.isNone then some c.1 else none) :=
  activeFrom_eq_filterMap g.edges

/-- The warnings about a graph, read off the judgements on its edges. -/
theorem warnings_eq : g.warnings = g.duplicates.map duplicateWarning ++
    g.classes.filterMap (fun c => c.2.map (Neglect.warning c.1)) := rfl

theorem mem_activeEdges_iff : e ∈ g.activeEdges ↔ (e, none) ∈ g.classes := by
  rw [activeEdges_eq_filterMap, List.mem_filterMap]
  simp

/-- Active edges stand in the order in which they were written. -/
theorem activeEdges_sublist : g.activeEdges.Sublist g.edges := by
  rw [← map_fst_classes, activeEdges_eq_filterMap]
  induction g.classes with
  | nil => simp
  | cons c rest ih =>
    obtain ⟨edge, objection⟩ := c
    cases objection with
    | none => exact ih.cons_cons edge
    | some _ => exact ih.cons edge

theorem mem_edges_of_mem_activeEdges (h : e ∈ g.activeEdges) : e ∈ g.edges :=
  activeEdges_sublist.subset h

theorem fits_of_mem_activeFrom (edges : List Edge) (hactive : ∀ a ∈ active, g.Fits a) :
    ∀ a ∈ g.activeFrom active edges, g.Fits a := by
  induction edges generalizing active with
  | nil => exact hactive
  | cons x xs ih =>
    simp only [activeFrom]
    split
    · exact ih hactive
    · next hx =>
      refine ih fun a ha => ?_
      rcases List.mem_append.1 ha with ha | ha
      · exact hactive a ha
      · rw [List.mem_singleton.1 ha]
        exact (neglect?_eq_none_iff.1 hx).1

/-- An active edge connects two blocks that carry tensors, at handles that they have. -/
theorem fits_of_mem_activeEdges (h : e ∈ g.activeEdges) : g.Fits e :=
  fits_of_mem_activeFrom g.edges (by simp) e h

/-- A node that carries tensors. -/
def CarriesTensors (g : Graph) (id : NodeId) : Prop :=
  ∃ node, g.node? id = some node ∧ node.block.carriesTensors = true

theorem Fits.source_carriesTensors (h : g.Fits e) : g.CarriesTensors e.source := by
  obtain ⟨source, -, -, hs, -, ho, -⟩ := h
  refine ⟨source, hs, ?_⟩
  by_contra hb
  have hboard : source.block = .board := by simpa [Block.carriesTensors] using hb
  simp [hboard, Block.hasOutput, Block.outputs] at ho

theorem Fits.target_carriesTensors (h : g.Fits e) : g.CarriesTensors e.target := by
  obtain ⟨-, target, handle, -, ht, -, hi⟩ := h
  refine ⟨target, ht, ?_⟩
  by_contra hb
  have hboard : target.block = .board := by simpa [Block.carriesTensors] using hb
  simp [hboard, Block.input?, Block.inputs] at hi

theorem mem_tensorNodes_iff {id : NodeId} {node : Node} :
    (id, node) ∈ g.tensorNodes ↔ g.node? id = some node ∧ node.block.carriesTensors = true := by
  unfold tensorNodes node?
  rw [List.mem_filter, Table.get?_eq_some_iff]

theorem mem_tensorIds_iff {id : NodeId} : id ∈ g.tensorNodes.map (·.1) ↔ g.CarriesTensors id := by
  unfold CarriesTensors
  rw [List.mem_map]
  constructor
  · rintro ⟨⟨id, node⟩, h, rfl⟩
    exact ⟨node, mem_tensorNodes_iff.1 h⟩
  · rintro ⟨node, h⟩
    exact ⟨(id, node), mem_tensorNodes_iff.2 h, rfl⟩

/-! ## The same blocks -/

/-- Two graphs have the same blocks under the same ids, whatever their parameters and edges. -/
def SameBlocks (g h : Graph) : Prop :=
  ∀ id, (h.node? id).map (·.block) = (g.node? id).map (·.block)

/-- Of a graph, the class of an edge depends on the blocks of its nodes only. -/
theorem neglect?_congr {h : Graph} (hblocks : g.SameBlocks h) :
    h.neglect? active e = g.neglect? active e := by
  have hsource := hblocks e.source
  have htarget := hblocks e.target
  unfold neglect?
  cases hs : g.node? e.source <;> cases hs' : h.node? e.source <;>
    cases ht : g.node? e.target <;> cases ht' : h.node? e.target <;> simp_all

/-- **Edges are judged by the blocks at their ends.** -/
theorem classesFrom_congr {h : Graph} (hblocks : g.SameBlocks h) (edges : List Edge) :
    h.classesFrom active edges = g.classesFrom active edges := by
  induction edges generalizing active with
  | nil => rfl
  | cons x xs ih => simp only [classesFrom, neglect?_congr hblocks, ih]

theorem activeFrom_congr {h : Graph} (hblocks : g.SameBlocks h) (edges : List Edge) :
    h.activeFrom active edges = g.activeFrom active edges := by
  rw [activeFrom_eq_filterMap, activeFrom_eq_filterMap, classesFrom_congr hblocks]

/-! ## One more edge -/

theorem sameBlocks_withEdge : g.SameBlocks (g.withEdge e) := fun _ => rfl

/-- **One more edge is judged by the active edges, and takes its place behind them.** -/
theorem activeEdges_withEdge :
    (g.withEdge e).activeEdges =
      if g.neglect? g.activeEdges e = none then g.activeEdges ++ [e] else g.activeEdges := by
  have hsplit : (g.withEdge e).activeEdges = g.activeFrom g.activeEdges [e] := by
    rw [activeEdges, activeFrom_congr sameBlocks_withEdge]
    exact activeFrom_append g.edges [e]
  rw [hsplit]
  simp only [activeFrom]
  split <;> simp_all

/-- One more edge is classified behind all others, and changes none of them. -/
theorem classes_withEdge :
    (g.withEdge e).classes = g.classes ++ [(e, g.neglect? g.activeEdges e)] := by
  have hsplit : (g.withEdge e).classes = g.classes ++ g.classesFrom g.activeEdges [e] := by
    rw [classes, classesFrom_congr sameBlocks_withEdge]
    exact classesFrom_append g.edges [e]
  rw [hsplit]
  simp only [classesFrom]
  split <;> simp_all

end ShapeFlow.Graph
