import ShapeFlow.Proofs.Upstream
import ShapeFlow.Proofs.Verdict

/-!
# Which edges are blamed

* `mem_blamedEdges_iff`: a failure is attributed to an edge that carries a shape iff the edge enters
  the handle of the failure, at the position of the failure if it has one.
* `Graph.Accuses`: the failures that are held against an edge, read off the target.
* `Graph.Deserves`: the verdict on an edge, case by case.
* `Graph.get?_edges_iff`: **with distinct ids every edge has the verdict that it deserves.**
* `Graph.misfit_blamed_alone`: a shape that does not fit those merged before it is held against the
  one edge that carries it.
-/

namespace ShapeFlow

/-- The shape that does not fit those merged before it. -/
def ShapeError.misfit? : ShapeError → Option Shape
  | shapeMismatch _ actual => some actual
  | axisMismatch _ _ actual => some actual
  | _ => none

/-! ## Positions among the edges into a handle -/

section Positions

variable {results : Table Result} {incoming edges : List Edge} {e : Edge} {f : Failure}

/-- Positions among the shapes that edges carry are positions among the edges, if each carries
one. -/
theorem getElem?_filterMap_carried? (hall : ∀ e ∈ edges, (carried? results e).isSome) (i : Nat) :
    (edges.filterMap (carried? results))[i]? = edges[i]?.bind (carried? results) := by
  induction edges generalizing i with
  | nil => rfl
  | cons e rest ih =>
    obtain ⟨he, hrest⟩ := List.forall_mem_cons.1 hall
    obtain ⟨shape, hshape⟩ := Option.isSome_iff_exists.1 he
    rw [List.filterMap_cons_some hshape]
    cases i with
    | zero => simp [hshape]
    | succ i => simpa using ih hrest i

/-- The shape at a position of a handle comes over the edge at this position. -/
theorem exists_edge_of_all {handle : String} {i : Nat} {shape : Shape}
    (hall : ∀ e ∈ incoming, (carried? results e).isSome)
    (h : ((arrivals results incoming).all handle)[i]? = some shape) :
    ∃ e, (incoming.filter (·.targetHandle == handle))[i]? = some e ∧
      carried? results e = some shape := by
  have hentering : ∀ e ∈ incoming.filter (·.targetHandle == handle),
      (carried? results e).isSome := fun e he => hall e (List.mem_of_mem_filter he)
  rw [all_arrivals, getElem?_filterMap_carried? hentering] at h
  exact Option.bind_eq_some_iff.1 h

theorem eq_of_id_eq (hids : (edges.map (·.id)).Nodup) {e e' : Edge} (he : e ∈ edges)
    (he' : e' ∈ edges) (h : e.id = e'.id) : e = e' :=
  List.inj_on_of_nodup_map hids he he' h

/-- Of edges with distinct ids, one that carries a shape is blamed iff it enters the handle of the
failure, at the position of the failure if it has one, and the failure is not inherited. -/
theorem mem_blamedEdges_iff (hids : (incoming.map (·.id)).Nodup) (he : e ∈ incoming)
    (hcarried : (carried? results e).isSome) :
    e.id ∈ blamedEdges f incoming results ↔
      f.handle = some e.targetHandle ∧ (∀ origin, f.error ≠ .upstreamError origin) ∧
        ∀ i, f.position = some i →
          (incoming.filter (·.targetHandle == e.targetHandle))[i]? = some e := by
  -- ids stand for edges
  have hid : e.id ∈ blamedEdges f incoming results ↔ Attributed f incoming results e := by
    rw [mem_blamedEdges_iff_attributed]
    constructor
    · rintro ⟨other, hother, heq⟩
      exact eq_of_id_eq hids hother.enters he heq ▸ hother
    · intro h
      exact ⟨e, h, rfl⟩
  rw [hid]
  constructor
  · intro h
    have hupstream : ∀ origin, f.error ≠ .upstreamError origin := by
      intro origin herror
      rw [h.bare origin herror] at hcarried
      cases hcarried
    exact ⟨h.handle, hupstream, h.place hupstream⟩
  · rintro ⟨hhandle, hupstream, hat⟩
    exact ⟨he, hhandle, fun origin herror => absurd herror (hupstream origin), fun _ => hat⟩

/-- A failure with a position blames the edge there and no other. -/
theorem blamedEdges_of_position {handle : String} {i : Nat} (hhandle : f.handle = some handle)
    (hposition : f.position = some i) (hne : ∀ origin, f.error ≠ .upstreamError origin)
    (he : (incoming.filter (·.targetHandle == handle))[i]? = some e) :
    blamedEdges f incoming results = [e.id] := by
  unfold blamedEdges
  rw [hhandle, hposition]
  dsimp only
  split
  · next origin herror => exact absurd herror (hne origin)
  · next position heq _ =>
    rw [← Option.some.inj heq, he]
    rfl
  · next heq _ => cases heq

end Positions

namespace Rule.Fault

variable {inputs : Inputs} {f : Failure}

/-- A rule gives a position iff it objects to the shape there among those that it merges. -/
theorem position_iff_misfit (h : Fault inputs f) :
    (f.error.misfit? = none ∧ f.position = none) ∨
      ∃ i shape, f.error.misfit? = some shape ∧ f.position = some i ∧
        f.handle = some Block.defaultInput ∧ (inputs.all Block.defaultInput)[i]? = some shape := by
  cases h with
  | setting h =>
    obtain ⟨key, reason, rfl⟩ := h
    exact Or.inl ⟨rfl, rfl⟩
  | shape _ h => cases h <;> exact Or.inl ⟨rfl, rfl⟩
  | dataset => exact Or.inl ⟨rfl, rfl⟩
  | missing => exact Or.inl ⟨rfl, rfl⟩
  | sum _ _ hx => exact Or.inr ⟨_, _, rfl, rfl, rfl, hx⟩
  | joint _ _ hx => exact Or.inr ⟨_, _, rfl, rfl, rfl, hx⟩

/-- A rule knows nothing of edges. -/
theorem error_ne_handleConflict (h : Fault inputs f) (handle : String) (count : Nat) :
    f.error ≠ .handleConflict handle count := by
  cases h with
  | setting h =>
    obtain ⟨key, reason, rfl⟩ := h
    exact ShapeError.noConfusion
  | shape _ h => cases h <;> exact ShapeError.noConfusion
  | dataset | missing | sum | joint => exact ShapeError.noConfusion

end Rule.Fault

/-- The codes of failures for which edges are to blame. -/
def Code.blaming : List Code :=
  [.dimensionMismatch, .shapeMismatch, .axisMismatch, .embeddingDimMismatch,
    .invalidSpatialReduction, .rankMismatch, .axisOutOfRange, .sequenceTooLong, .handleConflict]

/-- A rule that has a shape at the handle of its failure objects to shapes. -/
theorem Rule.Fault.code_mem_blaming {inputs : Inputs} {f : Failure} {handle : String}
    (h : Fault inputs f) (hhandle : f.handle = some handle) (hall : inputs.all handle ≠ []) :
    f.error.code ∈ Code.blaming := by
  cases h with
  | setting | dataset => cases hhandle
  | missing hnil =>
    cases hhandle
    exact absurd hnil hall
  | shape _ h => cases h <;> simp [Failure.atHandle, ShapeError.code, Code.blaming]
  | sum | joint => simp [Failure.atPosition, ShapeError.code, Code.blaming]

namespace Graph

variable {g : Graph} {id : NodeId} {e : Edge} {f : Failure} {error : ShapeError} {v : Verdict}

/-- The active edges into a handle of a node in the order of the graph. -/
def entering (g : Graph) (id : NodeId) (handle : String) : List Edge :=
  (g.incoming id).filter (·.targetHandle == handle)

/-- The rule of a node is asked, since nothing else is amiss, and fails. -/
def RuleFails (g : Graph) (id : NodeId) (f : Failure) : Prop :=
  ∃ node, (id, node) ∈ g.tensorNodes ∧ ¬ g.recompute.ReportsCycle id ∧
    node.Equipped (g.incoming id) ∧
    (∀ e ∈ g.incoming id, (g.recompute.shape? e.source).isSome = true) ∧
    node.block.rule node.params (arrivals g.results (g.incoming id)) = .error f

/-- The error of its target is held against an edge: there are several edges at its handle, which
takes one, or the rule objects to what arrives there. Of shapes that are merged, the rule objects to
the one at the position of its failure. -/
def Accuses (g : Graph) (e : Edge) (error : ShapeError) : Prop :=
  (g.recompute.blockage? e.target).map (·.error) = some error ∧
    ((∃ count, error = .handleConflict e.targetHandle count) ∨
      ∃ f, g.RuleFails e.target f ∧ f.error = error ∧ f.handle = some e.targetHandle ∧
        (error.misfit?.isSome = true →
          ∃ i, f.position = some i ∧ (g.entering e.target e.targetHandle)[i]? = some e))

/-- **The verdict on an edge.** An edge that takes no part is ignored with the code of its warning;
one whose source has no shape is inactive; one that its target's error is held against is invalid
with the code and the words of this error; every other edge carries the shape of its source. -/
inductive Deserves (g : Graph) (e : Edge) : Verdict → Prop
  | ignored {neglect : Neglect} (hactive : e ∉ g.activeEdges) (h : (e, some neglect) ∈ g.classes) :
      Deserves g e (.ignored neglect.code)
  | inactive (hactive : e ∈ g.activeEdges) (h : g.recompute.shape? e.source = none) :
      Deserves g e .inactive
  | invalid {error : ShapeError} (hactive : e ∈ g.activeEdges)
      (hshape : (g.recompute.shape? e.source).isSome = true) (h : g.Accuses e error) :
      Deserves g e (.invalid error.code error.message)
  | ok {shape : Shape} (hactive : e ∈ g.activeEdges)
      (hshape : g.recompute.shape? e.source = some shape) (h : ∀ error, ¬ g.Accuses e error) :
      Deserves g e (.ok shape)

theorem RuleFails.fails (h : g.RuleFails id f) :
    ∃ node, (id, node) ∈ g.tensorNodes ∧ ¬ g.recompute.ReportsCycle id ∧
      node.Fails (g.incoming id) g.results f ∧
      Rule.Fault (arrivals g.results (g.incoming id)) f := by
  obtain ⟨node, hmem, hcycle, hequipped, hall, hrule⟩ := h
  obtain ⟨hschema, hhandles⟩ := Node.equipped_iff.1 hequipped
  exact ⟨node, hmem, hcycle, .rule hschema hhandles (firstBare?_eq_none_iff.2 hall) hrule,
    Block.rule_fault _ _ _ f hrule⟩

theorem RuleFails.blockage (h : g.RuleFails id f) :
    g.recompute.blockage? id =
      some ⟨f.error, f.handle, blamedEdges f (g.incoming id) g.results⟩ := by
  obtain ⟨node, hmem, hcycle, hfails, -⟩ := h.fails
  exact blockage_of_fails hmem hcycle hfails

/-- The node at which a rule fails, if it is known. -/
theorem RuleFails.asked (h : g.RuleFails id f) {node : Node} (hmem : (id, node) ∈ g.tensorNodes) :
    node.Equipped (g.incoming id) ∧
      (∀ e ∈ g.incoming id, (g.recompute.shape? e.source).isSome = true) ∧
      node.block.rule node.params (arrivals g.results (g.incoming id)) = .error f := by
  obtain ⟨node', hmem', -, hasked⟩ := h
  have hnode := (mem_tensorNodes_iff.1 hmem).1
  rw [(mem_tensorNodes_iff.1 hmem').1, Option.some.injEq] at hnode
  subst hnode
  exact hasked

theorem RuleFails.unique {f' : Failure} (h : g.RuleFails id f) (h' : g.RuleFails id f') :
    f = f' := by
  obtain ⟨node, hmem, -, -, -, hrule⟩ := h
  obtain ⟨-, -, hrule'⟩ := h'.asked hmem
  exact Except.error.inj (hrule.symm.trans hrule')

theorem incoming_ids_nodup (hids : (g.edges.map (·.id)).Nodup) (id : NodeId) :
    ((g.incoming id).map (·.id)).Nodup :=
  hids.sublist ((List.filter_sublist.trans activeEdges_sublist).map _)

theorem mem_incoming_target (h : e ∈ g.activeEdges) : e ∈ g.incoming e.target :=
  mem_incoming.2 ⟨h, rfl⟩

/-- Where the rule is not asked, an edge is accused of one thing only: not to be alone at its
handle. -/
theorem accuses_iff_of_not_ruleFails (hno : ∀ f, ¬ g.RuleFails e.target f)
    (herror : (g.recompute.blockage? e.target).map (·.error) = some error) :
    g.Accuses e error ↔ ∃ count, error = .handleConflict e.targetHandle count := by
  rw [Accuses, and_iff_right herror]
  exact or_iff_left fun ⟨f, hf, _⟩ => hno f hf

/-- Where the rule is asked, the edges are accused to which its failure is attributed. -/
theorem accuses_iff_of_ruleFails (hids : (g.edges.map (·.id)).Nodup) (hactive : e ∈ g.activeEdges)
    (hcarried : (carried? g.results e).isSome) (hf : g.RuleFails e.target f) :
    g.Accuses e f.error ↔ e.id ∈ blamedEdges f (g.incoming e.target) g.results := by
  obtain ⟨-, -, -, -, hfault⟩ := hf.fails
  have hupstream : ∀ origin, f.error ≠ .upstreamError origin := by
    intro origin heq
    have hlocal := hfault.error_isLocal
    rw [heq] at hlocal
    cases hlocal
  -- the failure has a position iff it is about a shape that does not fit
  have hposition : (f.error.misfit?.isSome = true →
        ∃ i, f.position = some i ∧ (g.entering e.target e.targetHandle)[i]? = some e) ↔
      ∀ i, f.position = some i → (g.entering e.target e.targetHandle)[i]? = some e := by
    rcases hfault.position_iff_misfit with ⟨hmisfit, hnone⟩ | ⟨i, shape, hmisfit, hsome, -, -⟩
    · simp [hmisfit, hnone]
    · simp [hmisfit, hsome]
  rw [mem_blamedEdges_iff (incoming_ids_nodup hids _) (mem_incoming_target hactive) hcarried,
    Accuses, hf.blockage, Option.map_some, and_iff_right rfl]
  constructor
  · rintro (⟨count, h⟩ | ⟨f', hf', -, hhandle, hat⟩)
    · exact absurd h (hfault.error_ne_handleConflict _ _)
    · obtain rfl := hf.unique hf'
      exact ⟨hhandle, hupstream, hposition.1 hat⟩
  · rintro ⟨hhandle, -, hat⟩
    exact Or.inr ⟨f, hf, rfl, hhandle, hposition.2 hat⟩

/-- **A failure of its target is held against an edge iff the edge is blamed for it.** -/
theorem accuses_iff_blamed (hids : (g.edges.map (·.id)).Nodup) (hactive : e ∈ g.activeEdges)
    (hcarried : (carried? g.results e).isSome) {node : Node}
    (hmem : (e.target, node) ∈ g.tensorNodes) (hcycle : ¬ g.recompute.ReportsCycle e.target)
    (hfails : node.Fails (g.incoming e.target) g.results f) :
    g.Accuses e f.error ↔ e.id ∈ blamedEdges f (g.incoming e.target) g.results := by
  have he := mem_incoming_target hactive
  have herror : (g.recompute.blockage? e.target).map (·.error) = some f.error := by
    rw [blockage_of_fails hmem hcycle hfails, Option.map_some]
  have hblamed := mem_blamedEdges_iff (f := f) (incoming_ids_nodup hids _) he hcarried
  -- before the rule is asked, the node has to be equipped and every edge to carry a shape
  cases hfails with
  | settings hschema =>
    have hno : ∀ f, ¬ g.RuleFails e.target f := by
      intro f hf
      have hfits := (hf.asked hmem).1.settings
      rw [hschema] at hfits
      cases hfits
    rw [accuses_iff_of_not_ruleFails hno herror, hblamed]
    obtain ⟨key, reason, rfl⟩ := Param.checkSchema_error hschema
    simp [Failure.ofError]
  | handles hschema hhandles =>
    have hno : ∀ f, ¬ g.RuleFails e.target f := by
      intro f hf
      have hfit := (Node.equipped_iff.1 (hf.asked hmem).1).2
      rw [hhandles] at hfit
      cases hfit
    rw [accuses_iff_of_not_ruleFails hno herror, hblamed]
    obtain ⟨handle, -, ⟨hnone, rfl⟩ | ⟨-, -, rfl⟩⟩ := checkHandles_eq_error hhandles
    · -- the edge does not enter where there is none
      have hother : handle.name ≠ e.targetHandle := by
        intro heq
        rw [List.countP_eq_zero] at hnone
        exact hnone e he (by simp [heq])
      simp [Rule.missing, Failure.atHandle, hother]
    · simp [Failure.atHandle]
  | upstream hschema hhandles hbare =>
    have hno : ∀ f, ¬ g.RuleFails e.target f := by
      intro f hf
      have hnone : firstBare? g.results (g.incoming e.target) = none :=
        firstBare?_eq_none_iff.2 (hf.asked hmem).2.1
      rw [hbare] at hnone
      cases hnone
    rw [accuses_iff_of_not_ruleFails hno herror, hblamed]
    simp [inherited, Failure.atHandle]
  | rule hschema hhandles hbare hrule =>
    refine accuses_iff_of_ruleFails hids hactive hcarried ⟨node, hmem, hcycle, ?_, ?_, hrule⟩
    · exact Node.equipped_iff.2 ⟨hschema, hhandles⟩
    · exact firstBare?_eq_none_iff.1 hbare

/-- What is held against an edge is what its target blames it for, behind a cycle or not. -/
theorem accuses_iff (hids : (g.edges.map (·.id)).Nodup) (hactive : e ∈ g.activeEdges)
    (hcarried : (carried? g.results e).isSome) :
    g.Accuses e error ↔
      ∃ blockage, g.recompute.blockage? e.target = some blockage ∧ blockage.error = error ∧
        e.id ∈ blockage.edges := by
  by_cases hcycle : g.recompute.ReportsCycle e.target
  · -- a node behind a cycle blames no edge
    have hcyclic : g.recompute.blockage? e.target = some ⟨.cycleDetected, none, []⟩ := by
      change (g.results.get? e.target).bind Result.blockage? = _
      rw [get?_of_reportsCycle hcycle]
      rfl
    constructor
    · rintro ⟨herror, ⟨count, rfl⟩ | ⟨f, hf, -⟩⟩
      · rw [hcyclic] at herror
        cases herror
      · obtain ⟨-, -, hnot, -⟩ := hf.fails
        exact absurd hcycle hnot
    · rintro ⟨blockage, hblockage, -, hblamed⟩
      rw [hcyclic, Option.some.injEq] at hblockage
      subst hblockage
      cases hblamed
  · have hiff : ∀ blockage, g.recompute.blockage? e.target = some blockage →
        (g.Accuses e blockage.error ↔ e.id ∈ blockage.edges) := by
      intro blockage hblockage
      obtain ⟨node, f, hmem, hfails, rfl⟩ := fails_of_blockage hblockage hcycle
      exact accuses_iff_blamed hids hactive hcarried hmem hcycle hfails
    constructor
    · intro h
      obtain ⟨blockage, hblockage, rfl⟩ := Option.map_eq_some_iff.1 h.1
      exact ⟨blockage, hblockage, rfl, (hiff blockage hblockage).1 h⟩
    · rintro ⟨blockage, hblockage, rfl, hblamed⟩
      exact (hiff blockage hblockage).2 hblamed

theorem deserves_activeVerdict (hids : (g.edges.map (·.id)).Nodup) (hactive : e ∈ g.activeEdges) :
    g.Deserves e (activeVerdict g.results e) := by
  cases hcarried : carried? g.results e with
  | none =>
    rw [activeVerdict_of_bare hcarried]
    exact .inactive hactive hcarried
  | some shape =>
    have hsome : (carried? g.results e).isSome := by rw [hcarried]; rfl
    by_cases haccused : ∃ error, g.Accuses e error
    · obtain ⟨error, haccuses⟩ := haccused
      obtain ⟨blockage, hblockage, rfl, hblamed⟩ := (accuses_iff hids hactive hsome).1 haccuses
      rw [activeVerdict_of_blamed hcarried hblockage hblamed]
      exact .invalid hactive hsome haccuses
    · have hspared : activeVerdict g.results e = .ok shape := by
        refine activeVerdict_of_carried hcarried fun blockage hblockage hblamed => haccused ?_
        exact ⟨_, (accuses_iff hids hactive hsome).2 ⟨blockage, hblockage, rfl, hblamed⟩⟩
      rw [hspared]
      exact .ok hactive hcarried fun error haccuses => haccused ⟨error, haccuses⟩

/-- The judgement on an edge is unique. -/
theorem class_unique (hids : (g.edges.map (·.id)).Nodup) {c c' : Option Neglect}
    (hc : (e, c) ∈ g.classes) (hc' : (e, c') ∈ g.classes) : c = c' := by
  have hfind := find?_eq_some_of_nodup (map_id_classes ▸ hids) hc
  rw [find?_eq_some_of_nodup (map_id_classes ▸ hids) hc', Option.some.injEq] at hfind
  exact (congrArg Prod.snd hfind).symm

/-- No edge deserves two verdicts: neither its judgement nor the error of its target is another. -/
theorem Deserves.unique (hids : (g.edges.map (·.id)).Nodup) {v' : Verdict} (h : g.Deserves e v)
    (h' : g.Deserves e v') : v = v' := by
  cases h with
  | ignored hactive hc =>
    cases h' with
    | ignored _ hc' => rw [Option.some.inj (class_unique hids hc hc')]
    | inactive ha | invalid ha | ok ha => exact absurd ha hactive
  | inactive ha hnone =>
    cases h' with
    | ignored hactive => exact absurd ha hactive
    | inactive => rfl
    | invalid _ hsome => simp [hnone] at hsome
    | ok _ hsome => simp [hnone] at hsome
  | invalid ha hsome haccuses =>
    cases h' with
    | ignored hactive => exact absurd ha hactive
    | inactive _ hnone => simp [hnone] at hsome
    | invalid _ _ haccuses' => rw [Option.some.inj (haccuses.1.symm.trans haccuses'.1)]
    | ok _ _ hno => exact absurd haccuses (hno _)
  | ok ha hsome hno =>
    cases h' with
    | ignored hactive => exact absurd ha hactive
    | inactive _ hnone => simp [hnone] at hsome
    | invalid _ _ haccuses' => exact absurd haccuses' (hno _)
    | ok _ hsome' => rw [Option.some.inj (hsome.symm.trans hsome')]

/-- **With distinct ids every edge has the verdict that it deserves.** -/
theorem get?_edges_iff (hids : (g.edges.map (·.id)).Nodup) (he : e ∈ g.edges) :
    g.recompute.edges.get? e.id = some v ↔ g.Deserves e v := by
  obtain ⟨neglect?, hclass⟩ : ∃ neglect?, (e, neglect?) ∈ g.classes := by
    rw [← map_fst_classes] at he
    simpa using he
  have hverdict : (g.verdicts g.results).get? e.id = some (verdict g.results e neglect?) :=
    get?_verdicts_of_mem hids hclass
  have hdeserves : g.Deserves e (verdict g.results e neglect?) := by
    cases neglect? with
    | some neglect =>
      refine .ignored (fun hactive => ?_) hclass
      cases class_unique hids hclass (mem_activeEdges_iff.1 hactive)
    | none => exact deserves_activeVerdict hids (mem_activeEdges_iff.2 hclass)
  change (g.verdicts g.results).get? e.id = some v ↔ _
  rw [hverdict, Option.some.injEq]
  constructor
  · rintro rfl
    exact hdeserves
  · exact hdeserves.unique hids

theorem mem_edges_names_iff {id : EdgeId} :
    id ∈ g.recompute.edges.names ↔ id ∈ g.edges.map (·.id) := by
  rw [Table.mem_names_iff]
  change ((g.verdicts g.results).get? id).isSome ↔ _
  rw [get?_verdicts, Option.isSome_map, List.find?_isSome, ← map_id_classes, List.mem_map]
  simp

/-- **A shape that does not fit those merged before it** is held against the one edge that carries
it, which is the only one to be blamed, and the other edges into the handle carry their shapes. -/
theorem misfit_blamed_alone (hids : (g.edges.map (·.id)).Nodup) (hf : g.RuleFails id f)
    {shape : Shape} (hmisfit : f.error.misfit? = some shape) :
    ∃ handle i e, f.handle = some handle ∧ f.position = some i ∧
      (g.entering id handle)[i]? = some e ∧ g.recompute.shape? e.source = some shape ∧
      (g.recompute.blockage? id).map (·.edges) = some [e.id] ∧
      g.recompute.edges.get? e.id = some (.invalid f.error.code f.error.message) ∧
      ∀ sibling ∈ g.entering id handle, sibling ≠ e →
        ∃ carried, g.recompute.shape? sibling.source = some carried ∧
          g.recompute.edges.get? sibling.id = some (.ok carried) := by
  obtain ⟨-, -, -, -, hfault⟩ := hf.fails
  obtain ⟨hnone, -⟩ | ⟨i, shape', hsome, hposition, hhandle, hinput⟩ := hfault.position_iff_misfit
  · rw [hmisfit] at hnone
    cases hnone
  obtain rfl : shape = shape' := Option.some.inj (hmisfit.symm.trans hsome)
  have hcarried : ∀ e ∈ g.incoming id, (carried? g.results e).isSome := by
    obtain ⟨-, -, -, -, hall, -⟩ := hf
    exact hall
  -- the shape at the position among the inputs came over the edge at this position
  obtain ⟨e, hat, hshape⟩ := exists_edge_of_all hcarried hinput
  have hentering : ∀ {e'}, e' ∈ g.entering id Block.defaultInput →
      e' ∈ g.activeEdges ∧ e'.target = id ∧ e'.targetHandle = Block.defaultInput := by
    intro e' he'
    obtain ⟨hincoming, hname⟩ := List.mem_filter.1 he'
    obtain ⟨hactive, htarget⟩ := mem_incoming.1 hincoming
    exact ⟨hactive, htarget, beq_iff_eq.1 hname⟩
  obtain ⟨hactive, htarget, hname⟩ := hentering (List.mem_of_getElem? hat)
  have hupstream : ∀ origin, f.error ≠ .upstreamError origin := by
    intro origin heq
    rw [heq] at hmisfit
    cases hmisfit
  have hverdict : g.recompute.edges.get? e.id =
      some (.invalid f.error.code f.error.message) := by
    refine (get?_edges_iff hids (mem_edges_of_mem_activeEdges hactive)).2 ?_
    refine .invalid hactive (by rw [← carried?_results, hshape]; rfl) ⟨?_, Or.inr ⟨f, ?_⟩⟩
    · rw [htarget, hf.blockage]
      rfl
    · rw [htarget, hname]
      exact ⟨hf, rfl, hhandle, fun _ => ⟨i, hposition, hat⟩⟩
  refine ⟨Block.defaultInput, i, e, hhandle, hposition, hat, hshape, ?_, hverdict, ?_⟩
  · rw [hf.blockage, Option.map_some, blamedEdges_of_position hhandle hposition hupstream hat]
  · intro sibling hsibling hother
    obtain ⟨hactive', htarget', hname'⟩ := hentering hsibling
    obtain ⟨carried, hshape'⟩ :=
      Option.isSome_iff_exists.1 (hcarried sibling (List.mem_of_mem_filter hsibling))
    refine ⟨carried, hshape', ?_⟩
    refine (get?_edges_iff hids (mem_edges_of_mem_activeEdges hactive')).2 ?_
    refine .ok hactive' hshape' fun error haccuses => hother ?_
    obtain ⟨herror, ⟨count, rfl⟩ | ⟨f', hf', rfl, -, hat'⟩⟩ := haccuses
    · rw [htarget', hf.blockage, Option.map_some, Option.some.injEq] at herror
      exact absurd herror (hfault.error_ne_handleConflict _ _)
    · rw [htarget'] at hf'
      obtain rfl := hf.unique hf'
      obtain ⟨i', hposition', hi'⟩ := hat' (by rw [hmisfit]; rfl)
      rw [hposition, Option.some.injEq] at hposition'
      rw [htarget', hname', ← hposition'] at hi'
      exact Option.some.inj (hi'.symm.trans hat)

/-- An edge is held to be invalid for what its target says of edges. -/
theorem code_mem_blaming (hids : (g.edges.map (·.id)).Nodup) {id : EdgeId} {code : Code}
    {message : String} (h : g.recompute.edges.get? id = some (.invalid code message)) :
    code ∈ Code.blaming := by
  have hid : id ∈ g.edges.map (·.id) := by
    rw [← mem_edges_names_iff, Table.mem_names_iff, h]
    rfl
  obtain ⟨e, he, rfl⟩ := List.mem_map.1 hid
  have hdeserves := (get?_edges_iff hids he).1 h
  cases hdeserves with
  | invalid hactive hshape haccuses =>
    obtain ⟨-, ⟨count, rfl⟩ | ⟨f, hf, rfl, hhandle, -⟩⟩ := haccuses
    · simp [ShapeError.code, Code.blaming]
    · obtain ⟨-, -, -, -, hfault⟩ := hf.fails
      refine hfault.code_mem_blaming hhandle fun hnil => ?_
      -- the edge itself brings a shape to the handle
      obtain ⟨shape, hcarried⟩ := Option.isSome_iff_exists.1 hshape
      have hmem : shape ∈ (arrivals g.results (g.incoming e.target)).all e.targetHandle := by
        rw [all_arrivals, List.mem_filterMap]
        exact ⟨e, List.mem_filter.2 ⟨mem_incoming_target hactive, by simp⟩, hcarried⟩
      rw [hnil] at hmem
      cases hmem

/-- **The law of verdicts**, for distinct edge ids. The verdicts stand under the ids of the edges,
and every edge has the one that it deserves. A shape that does not fit those merged before it is
held against the edge that carries it and against no other. Edges are never invalid for a missing
input, for parameters, for cycles or for what is inherited. -/
theorem verdicts_are_deserved (g : Graph) (hids : (g.edges.map (·.id)).Nodup) :
    (∀ id, id ∈ g.recompute.edges.names ↔ id ∈ g.edges.map (·.id)) ∧
    (∀ e ∈ g.edges, ∀ v, g.recompute.edges.get? e.id = some v ↔ g.Deserves e v) ∧
    (∀ id f shape, g.RuleFails id f → f.error.misfit? = some shape →
      ∃ handle i e, f.handle = some handle ∧ f.position = some i ∧
        (g.entering id handle)[i]? = some e ∧ g.recompute.shape? e.source = some shape ∧
        (g.recompute.blockage? id).map (·.edges) = some [e.id] ∧
        g.recompute.edges.get? e.id = some (.invalid f.error.code f.error.message) ∧
        ∀ sibling ∈ g.entering id handle, sibling ≠ e →
          ∃ carried, g.recompute.shape? sibling.source = some carried ∧
            g.recompute.edges.get? sibling.id = some (.ok carried)) ∧
    ∀ id code message, g.recompute.edges.get? id = some (.invalid code message) →
      code ∉ [Code.missingInput, .unknownDataset, .invalidParam, .cycleDetected, .upstreamError] := by
  refine ⟨fun id => mem_edges_names_iff, fun e he v => get?_edges_iff hids he, ?_, ?_⟩
  · intro id f shape hf hmisfit
    exact misfit_blamed_alone hids hf hmisfit
  · intro id code message h
    have hblameless : ∀ code ∈ Code.blaming, code ∉
        [Code.missingInput, .unknownDataset, .invalidParam, .cycleDetected, .upstreamError] := by
      decide
    exact hblameless code (code_mem_blaming hids h)

/-- Three texts that enter a sum, the third of another length. -/
def unequal : Graph :=
  let text (length : Double) : Node := ⟨.textInput, Table.empty.insert "seq_len" (.number length)⟩
  ⟨Table.ofList [("a", text 10), ("b", text 10), ("c", text 20), ("sum", ⟨.add, Table.empty⟩)],
    [⟨"first", "a", "out", "sum", "in"⟩, ⟨"second", "b", "out", "sum", "in"⟩,
      ⟨"third", "c", "out", "sum", "in"⟩], []⟩

/-- The third text is to blame, and the second is not. -/
theorem verdicts_are_deserved_unequal :
    (unequal.edges.map (·.id)).Nodup ∧
      unequal.Deserves ⟨"third", "c", "out", "sum", "in"⟩
        (.invalid .shapeMismatch "input shapes differ: [10] vs [20]") ∧
      unequal.Deserves ⟨"second", "b", "out", "sum", "in"⟩ (.ok ⟨[.known 10]⟩) := by
  have hids : (unequal.edges.map (·.id)).Nodup := by decide +kernel
  have hlaw := (verdicts_are_deserved unequal hids).2.1
  exact ⟨hids, (hlaw _ (by decide +kernel) _).1 (by decide +kernel),
    (hlaw _ (by decide +kernel) _).1 (by decide +kernel)⟩

end Graph

end ShapeFlow
