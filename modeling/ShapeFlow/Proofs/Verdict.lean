import ShapeFlow.Proofs.Equations

/-!
# Verdicts on edges

* `Graph.get?_verdicts`: an edge id has the verdict on the first edge of that id, and with distinct
  ids every edge has its own.
* `Graph.arrivals_incoming`: the inputs of a node, read off the verdicts.
* `Graph.get?_edges_withEdge`: the verdict on one more edge of a new id.
-/

namespace ShapeFlow.Graph

variable {g : Graph} {results : Table Result} {e : Edge} {neglect? : Option Neglect}

/-- **An edge id has the verdict on the first edge of that id.** -/
theorem get?_verdicts (id : EdgeId) :
    (g.verdicts results).get? id =
      (g.classes.find? (·.1.id == id)).map (fun c => verdict results c.1 c.2) := by
  have h := Table.get?_foldl_insertNew (fun c => (c.1.id, verdict results c.1 c.2)) g.classes
    Table.empty id
  rw [Table.get?_empty, Option.none_or] at h
  exact h

/-- An edge comes first of its id among the edges iff its judgement does among the judgements. -/
theorem find?_edges (id : EdgeId) :
    g.edges.find? (·.id == id) = (g.classes.find? (·.1.id == id)).map (·.1) := by
  rw [← map_fst_classes, List.find?_map]
  rfl

/-- The verdict on an active edge depends on the results at its ends, any other on its judgement. -/
theorem verdict_congr {others : Table Result}
    (h : neglect? = none → results.get? e.source = others.get? e.source ∧
      results.get? e.target = others.get? e.target) :
    verdict results e neglect? = verdict others e neglect? := by
  cases neglect? with
  | some neglect => rfl
  | none =>
    obtain ⟨hsource, htarget⟩ := h rfl
    simp only [verdict, activeVerdict, hsource, htarget]

theorem isIgnored_verdict : (verdict results e neglect?).isIgnored = neglect?.isSome := by
  cases neglect? with
  | some => rfl
  | none =>
    simp only [verdict, activeVerdict]
    split
    · rfl
    · split
      · split <;> rfl
      · rfl

theorem find?_eq_some_of_nodup {classes : List (Edge × Option Neglect)}
    (hids : (classes.map (·.1.id)).Nodup) (h : (e, neglect?) ∈ classes) :
    classes.find? (·.1.id == e.id) = some (e, neglect?) := by
  induction classes with
  | nil => cases h
  | cons c rest ih =>
    obtain ⟨hnotin, hrest⟩ := List.nodup_cons.1 hids
    rcases List.mem_cons.1 h with rfl | h
    · simp
    · have hne : (c.1.id == e.id) = false := by
        rw [beq_eq_false_iff_ne]
        intro heq
        exact hnotin (List.mem_map.2 ⟨_, h, heq.symm⟩)
      rw [List.find?_cons, hne]
      exact ih hrest h

theorem map_id_classes : g.classes.map (·.1.id) = g.edges.map (·.id) := by
  rw [← map_fst_classes, List.map_map]
  rfl

/-- With distinct ids every edge has the verdict on itself. -/
theorem get?_verdicts_of_mem (hids : (g.edges.map (·.id)).Nodup) (h : (e, neglect?) ∈ g.classes) :
    (g.verdicts results).get? e.id = some (verdict results e neglect?) := by
  rw [get?_verdicts, find?_eq_some_of_nodup (map_id_classes ▸ hids) h, Option.map_some]

/-- The verdict on an edge that carries a shape depends on whether its target blames its id. -/
theorem activeVerdict_of_carried {shape : Shape} (h : carried? results e = some shape)
    (hblame : ∀ blockage, (results.get? e.target).bind Result.blockage? = some blockage →
      e.id ∉ blockage.edges) : activeVerdict results e = .ok shape := by
  unfold activeVerdict
  rw [← carried?, h]
  cases hb : (results.get? e.target).bind Result.blockage? with
  | none => rfl
  | some blockage => simp [hblame blockage hb]

theorem activeVerdict_of_blamed {shape : Shape} {blockage : Blockage}
    (h : carried? results e = some shape)
    (hblockage : (results.get? e.target).bind Result.blockage? = some blockage)
    (hblamed : e.id ∈ blockage.edges) :
    activeVerdict results e = .invalid blockage.error.code blockage.error.message := by
  unfold activeVerdict
  rw [← carried?, h, hblockage]
  simp [hblamed]

theorem activeVerdict_of_bare (h : carried? results e = none) :
    activeVerdict results e = .inactive := by
  unfold activeVerdict
  rw [← carried?, h]

/-- **The inputs of a node, read off the verdicts**: the edges into it that are not ignored. -/
theorem arrivals_incoming (hids : (g.edges.map (·.id)).Nodup) (id : NodeId) :
    (arrivals results (g.incoming id)).arrivals = g.edges.filterMap (fun e =>
      if e.target = id ∧ !(((g.verdicts results).get? e.id).any Verdict.isIgnored) then
        (carried? results e).map (e.targetHandle, ·)
      else none) := by
  -- both sides run over the judged edges, of which each has the verdict on itself
  unfold arrivals incoming edgesInto
  rw [activeEdges_eq_filterMap, List.filterMap_filter, List.filterMap_filterMap]
  conv_rhs => rw [← map_fst_classes (g := g), List.filterMap_map]
  refine List.filterMap_congr fun c hc => ?_
  obtain ⟨e, neglect?⟩ := c
  simp only [Function.comp_apply, get?_verdicts_of_mem hids hc, Option.any_some, isIgnored_verdict]
  by_cases ht : e.target = id <;> cases neglect? <;> simp [ht]

/-! ## One more edge -/

/-- **The verdict on one more edge**, whose id is new. -/
theorem get?_edges_withEdge (hid : e.id ∉ g.edges.map (·.id)) :
    (g.withEdge e).recompute.edges.get? e.id =
      some (verdict (g.withEdge e).results e (g.neglect? g.activeEdges e)) := by
  have hnone : g.classes.find? (·.1.id == e.id) = none := by
    rw [List.find?_eq_none]
    intro c hc heq
    rw [← map_id_classes] at hid
    exact hid (List.mem_map.2 ⟨c, hc, by simpa using heq⟩)
  change ((g.withEdge e).verdicts (g.withEdge e).results).get? e.id = _
  rw [get?_verdicts, classes_withEdge, List.find?_append, hnone]
  simp

end ShapeFlow.Graph
