import ShapeFlow.Proofs.Blame
import ShapeFlow.Proofs.Renaming
import Mathlib.Logic.Equiv.Basic

/-!
# Names do not matter

* `Graph.rename`: a graph with its nodes and edges renamed.
* `Graph.ids`: the names of nodes that occur in a graph, which a renaming has to keep apart.
* `Graph.classes_rename`: edges are judged as before.
* `Graph.get?_results_rename`: **the results are the renamed results**, though the nodes are visited
  in another order.
* `Graph.names_never_matter`: the same of results, verdicts and warnings.
-/

namespace ShapeFlow

open List Relation

/-- An error for which edges are to blame mentions no node. -/
theorem ShapeError.rename_of_blaming {f : NodeId → NodeId} {error : ShapeError}
    (h : error.code ∈ Code.blaming) : error.rename f = error := by
  cases error with
  | upstreamError => exact absurd h (show Code.upstreamError ∉ Code.blaming by decide)
  | selfConnection => exact absurd h (show Code.selfConnection ∉ Code.blaming by decide)
  | unknownNode => exact absurd h (show Code.unknownNode ∉ Code.blaming by decide)
  | _ => rfl

namespace Graph

/-- A graph with its nodes and edges renamed. -/
def rename (g : Graph) (f : NodeId → NodeId) (k : EdgeId → EdgeId) : Graph :=
  ⟨g.nodes.rename f, g.edges.map (Edge.rename f k), g.duplicates.map f⟩

/-- The names of nodes that occur in a graph, whether there are such nodes or not. -/
def ids (g : Graph) : List NodeId :=
  g.nodes.names ++ (g.edges.map (·.source) ++ g.edges.map (·.target))

variable {g : Graph} {f : NodeId → NodeId} {k : EdgeId → EdgeId} {id : NodeId} {e : Edge}
  {active edges : List Edge}

theorem mem_ids_of_node? {node : Node} (h : g.node? id = some node) : id ∈ g.ids := by
  refine List.mem_append_left _ (Table.mem_names_iff.2 ?_)
  rw [← node?, h]
  rfl

theorem mem_ids_of_carriesTensors (h : g.CarriesTensors id) : id ∈ g.ids := by
  obtain ⟨node, hnode, -⟩ := h
  exact mem_ids_of_node? hnode

theorem source_mem_ids (he : e ∈ g.edges) : e.source ∈ g.ids := by
  simp only [ids, List.mem_append]
  exact Or.inr (Or.inl (List.mem_map_of_mem he))

theorem target_mem_ids (he : e ∈ g.edges) : e.target ∈ g.ids := by
  simp only [ids, List.mem_append]
  exact Or.inr (Or.inr (List.mem_map_of_mem he))

section Nodes

variable (hf : Set.InjOn f {id | id ∈ g.ids})
include hf

/-! ## Nodes and edges -/

theorem node?_rename_eq_some_iff {node : Node} :
    (g.rename f k).node? id = some node ↔ ∃ old, f old = id ∧ g.node? old = some node :=
  Table.get?_rename_eq_some_iff (hf.mono fun _ h => List.mem_append_left _ h)

theorem node?_rename (hid : id ∈ g.ids) : (g.rename f k).node? (f id) = g.node? id := by
  refine Option.ext fun node => (node?_rename_eq_some_iff hf).trans ⟨?_, fun h => ⟨id, rfl, h⟩⟩
  rintro ⟨old, hold, hnode⟩
  rwa [← hf (mem_ids_of_node? hnode) hid hold]

theorem sameConnection_rename {a : Edge} (ha : a ∈ g.edges) (he : e ∈ g.edges) :
    (a.rename f k).sameConnection (e.rename f k) = a.sameConnection e := by
  have hsource : f a.source = f e.source ↔ a.source = e.source :=
    hf.eq_iff (source_mem_ids ha) (source_mem_ids he)
  have htarget : f a.target = f e.target ↔ a.target = e.target :=
    hf.eq_iff (target_mem_ids ha) (target_mem_ids he)
  rw [Bool.eq_iff_iff]
  simp only [Edge.sameConnection, Edge.rename, Bool.and_eq_true, beq_iff_eq, hsource, htarget]

theorem neglect?_rename (hactive : active ⊆ g.edges) (he : e ∈ g.edges) :
    (g.rename f k).neglect? (active.map (Edge.rename f k)) (e.rename f k) =
      (g.neglect? active e).map (Neglect.rename f) := by
  have hrepeats : (active.map (Edge.rename f k)).any (·.sameConnection (e.rename f k)) =
      active.any (·.sameConnection e) := by
    rw [List.any_map, Bool.eq_iff_iff, List.any_eq_true, List.any_eq_true]
    refine exists_congr fun a => and_congr_right fun ha => ?_
    rw [Function.comp_apply, sameConnection_rename hf (hactive ha) he]
  unfold neglect?
  rw [hrepeats, Edge.source_rename, Edge.target_rename, node?_rename hf (source_mem_ids he),
    node?_rename hf (target_mem_ids he)]
  cases g.node? e.source with
  | none => rfl
  | some source =>
    cases g.node? e.target with
    | none => rfl
    | some target =>
      simp only [apply_ite (Option.map (Neglect.rename f))]
      rfl

/-- **Edges are judged as before.** -/
theorem classesFrom_rename (hactive : active ⊆ g.edges) (hedges : edges ⊆ g.edges) :
    (g.rename f k).classesFrom (active.map (Edge.rename f k)) (edges.map (Edge.rename f k)) =
      (g.classesFrom active edges).map
        (fun c => (c.1.rename f k, c.2.map (Neglect.rename f))) := by
  induction edges generalizing active with
  | nil => rfl
  | cons x xs ih =>
    obtain ⟨hx, hxs⟩ := List.cons_subset.1 hedges
    rw [List.map_cons, classesFrom, neglect?_rename hf hactive hx, classesFrom]
    cases g.neglect? active x with
    | some neglect =>
      rw [Option.map_some]
      exact congrArg _ (ih hactive hxs)
    | none =>
      have happend : active.map (Edge.rename f k) ++ [x.rename f k] =
          (active ++ [x]).map (Edge.rename f k) := by simp
      rw [Option.map_none]
      dsimp only
      rw [happend, ih (List.append_subset.2 ⟨hactive, List.cons_subset.2 ⟨hx, List.nil_subset _⟩⟩)
        hxs]
      rfl

theorem classes_rename : (g.rename f k).classes =
    g.classes.map (fun c => (c.1.rename f k, c.2.map (Neglect.rename f))) :=
  classesFrom_rename hf (List.nil_subset _) (List.Subset.refl _)

theorem activeEdges_rename :
    (g.rename f k).activeEdges = g.activeEdges.map (Edge.rename f k) := by
  rw [activeEdges_eq_filterMap, classes_rename hf, activeEdges_eq_filterMap, List.filterMap_map,
    List.map_filterMap]
  refine List.filterMap_congr fun c _ => ?_
  rcases c with ⟨e, _ | neglect⟩ <;> rfl

theorem incoming_rename (hid : id ∈ g.ids) :
    (g.rename f k).incoming (f id) = (g.incoming id).map (Edge.rename f k) := by
  unfold incoming edgesInto
  rw [activeEdges_rename hf, List.filter_map]
  refine congrArg _ (List.filter_congr fun e he => ?_)
  have htarget : f e.target = f id ↔ e.target = id :=
    hf.eq_iff (target_mem_ids (mem_edges_of_mem_activeEdges he)) hid
  rw [Function.comp_apply, Edge.target_rename, Bool.eq_iff_iff, beq_iff_eq, beq_iff_eq, htarget]

/-! ## Results -/

theorem carriesTensors_rename_iff :
    (g.rename f k).CarriesTensors id ↔ ∃ old, f old = id ∧ g.CarriesTensors old := by
  constructor
  · rintro ⟨node, hnode, hblock⟩
    obtain ⟨old, hold, hnode⟩ := (node?_rename_eq_some_iff hf).1 hnode
    exact ⟨old, hold, node, hnode, hblock⟩
  · rintro ⟨old, hold, node, hnode, hblock⟩
    exact ⟨node, (node?_rename_eq_some_iff hf).2 ⟨old, hold, hnode⟩, hblock⟩

/-- What lies before a renamed node are the renamed nodes before it. -/
theorem acc_rename_iff (hid : id ∈ g.ids) :
    Acc (g.rename f k).Feeds (f id) ↔ Acc g.Feeds id := by
  constructor
  · intro h
    refine Subrelation.accessible (fun {a b} hab => ?_) (InvImage.accessible f h)
    obtain ⟨e, he, rfl, rfl⟩ := hab
    refine ⟨e.rename f k, ?_, rfl, rfl⟩
    rw [activeEdges_rename hf]
    exact List.mem_map_of_mem he
  · intro h
    induction h with
    | intro id _ ih =>
      refine Acc.intro _ fun a ha => ?_
      obtain ⟨e', he', rfl, htarget⟩ := ha
      rw [activeEdges_rename hf] at he'
      obtain ⟨e, he, rfl⟩ := List.mem_map.1 he'
      have hedge := mem_edges_of_mem_activeEdges he
      obtain rfl : e.target = id := hf (target_mem_ids hedge) hid htarget
      exact ih e.source (linked_of_mem he) (source_mem_ids hedge)

/-- **The results are the renamed results.** -/
theorem get?_results_rename (hid : id ∈ g.ids) :
    (g.rename f k).results.get? (f id) = (g.results.get? id).map (Result.rename f k) := by
  have hg := g.solves_results
  have hh := (g.rename f k).solves_results
  by_cases hc : g.CarriesTensors id
  · have hc' : (g.rename f k).CarriesTensors (f id) :=
      (carriesTensors_rename_iff hf).2 ⟨id, rfl, hc⟩
    by_cases hacc : Acc g.Feeds id
    · -- the induction goes along the edges, and not along either order of visits
      induction hacc with
      | intro id hbefore ih =>
        have hacc : Acc g.Feeds id := Acc.intro id hbefore
        obtain ⟨node, hnode, hblock⟩ := hc
        have hnode' : (g.rename f k).node? (f id) = some node := by rw [node?_rename hf hid, hnode]
        rw [hg.evaluated id node (mem_tensorNodes_iff.2 ⟨hnode, hblock⟩) (not_not_intro hacc),
          hh.evaluated (f id) node (mem_tensorNodes_iff.2 ⟨hnode', hblock⟩)
            (not_not_intro ((acc_rename_iff hf hid).2 hacc)), incoming_rename hf hid,
          Option.map_some, Node.evaluate_rename fun e he => ?_]
        obtain ⟨hactive, -⟩ := mem_incoming.1 he
        have hsource := (fits_of_mem_activeEdges hactive).source_carriesTensors
        exact ih e.source (linked_of_incoming he) (mem_ids_of_carriesTensors hsource) hsource
          ((carriesTensors_rename_iff hf).2 ⟨_, rfl, hsource⟩)
    · rw [hg.stuck id hc hacc, hh.stuck _ hc' (mt (acc_rename_iff hf hid).1 hacc)]
      rfl
  · have hc' : ¬ (g.rename f k).CarriesTensors (f id) := by
      rw [carriesTensors_rename_iff hf]
      rintro ⟨old, hold, hcarries⟩
      exact hc (hf (mem_ids_of_carriesTensors hcarries) hid hold ▸ hcarries)
    have hnone : g.results.get? id = none := get?_eq_none_iff.2 hc
    have hnone' : (g.rename f k).results.get? (f id) = none := get?_eq_none_iff.2 hc'
    rw [hnone, hnone']
    rfl

theorem nodes_renamed : g.recompute.nodes.Renamed f (fun r r' => r' = r.rename f k)
    (g.rename f k).recompute.nodes := by
  have hids : {id | id ∈ g.recompute.nodes.names} ⊆ {id | id ∈ g.ids} := fun id hid =>
    mem_ids_of_carriesTensors (mem_nodes_names_iff.1 hid)
  refine ⟨Table.names_perm (hf.mono hids) fun id => ?_, fun id result hresult => ?_⟩
  · rw [mem_nodes_names_iff, carriesTensors_rename_iff hf]
    simp only [mem_nodes_names_iff, and_comm]
  · have hid : id ∈ g.ids := mem_ids_of_carriesTensors (carriesTensors_of_get? hresult)
    change g.results.get? id = some result at hresult
    refine ⟨result.rename f k, ?_, rfl⟩
    change (g.rename f k).results.get? (f id) = _
    rw [get?_results_rename hf hid, hresult, Option.map_some]

/-! ## Warnings -/

/-- **The same warnings are given in the same order.** -/
theorem warnings_renamed :
    Forall₂ (Diagnostic.Renamed f k) g.recompute.warnings (g.rename f k).recompute.warnings := by
  have hduplicates : ∀ ids : List NodeId, Forall₂ (Diagnostic.Renamed f k)
      (ids.map duplicateWarning) ((ids.map f).map duplicateWarning) := by
    intro ids
    rw [List.forall₂_map_left_iff, List.map_map, List.forall₂_map_right_iff, List.forall₂_same]
    exact fun id _ => ⟨rfl, rfl, rfl, rfl, rfl⟩
  have hneglects : ∀ classes : List (Edge × Option Neglect), Forall₂ (Diagnostic.Renamed f k)
      (classes.filterMap (fun c => c.2.map (Neglect.warning c.1)))
      ((classes.map (fun c => (c.1.rename f k, c.2.map (Neglect.rename f)))).filterMap
        (fun c => c.2.map (Neglect.warning c.1))) := by
    intro classes
    induction classes with
    | nil => exact .nil
    | cons c rest ih =>
      obtain ⟨e, _ | neglect⟩ := c
      · exact ih
      · exact .cons (neglect.warning_renamed e) ih
  change Forall₂ _ g.warnings (g.rename f k).warnings
  unfold warnings
  rw [classes_rename hf]
  exact List.rel_append (hduplicates g.duplicates) (hneglects g.classes)

/-! ## Verdicts -/

theorem blockage?_rename (hid : id ∈ g.ids) :
    ((g.rename f k).results.get? (f id)).bind Result.blockage? =
      ((g.results.get? id).bind Result.blockage?).map (Blockage.rename f k) := by
  rw [get?_results_rename hf hid]
  cases g.results.get? id with
  | none => rfl
  | some result => exact result.blockage?_rename

end Nodes

/-- Only edges of the graph are ever blamed. -/
theorem mem_edges_of_blamed {blockage : Blockage}
    (h : (g.results.get? id).bind Result.blockage? = some blockage) :
    ∀ blamed ∈ blockage.edges, blamed ∈ g.edges.map (·.id) := by
  intro blamed hblamed
  by_cases hcycle : g.recompute.ReportsCycle id
  · rw [get?_of_reportsCycle hcycle] at h
    cases h
    cases hblamed
  · obtain ⟨node, failure, -, -, rfl⟩ := fails_of_blockage h hcycle
    obtain ⟨e, he, rfl, -⟩ := mem_blamedEdges hblamed
    exact List.mem_map_of_mem (mem_edges_of_mem_activeEdges (mem_incoming.1 he).1)

section Edges

variable (hf : Set.InjOn f {id | id ∈ g.ids}) (hk : Set.InjOn k {id | id ∈ g.edges.map (·.id)})
include hf hk

theorem activeVerdict_renamed (he : e ∈ g.edges) :
    (activeVerdict g.results e).Renamed f (activeVerdict (g.rename f k).results (e.rename f k)) := by
  have hcarried : carried? (g.rename f k).results (e.rename f k) = carried? g.results e :=
    carried?_rename (get?_results_rename hf (source_mem_ids he))
  have htarget : ((g.rename f k).results.get? (e.rename f k).target).bind Result.blockage? =
      ((g.results.get? e.target).bind Result.blockage?).map (Blockage.rename f k) :=
    blockage?_rename hf (target_mem_ids he)
  cases hshape : carried? g.results e with
  | none =>
    rw [activeVerdict_of_bare hshape, activeVerdict_of_bare (hcarried.trans hshape)]
    exact .inactive
  | some shape =>
    rw [hshape] at hcarried
    -- the target blames the one edge if it blamed the other
    by_cases hblamed : ∃ blockage, (g.results.get? e.target).bind Result.blockage? = some blockage ∧
        e.id ∈ blockage.edges
    · obtain ⟨blockage, hblockage, hid⟩ := hblamed
      rw [hblockage, Option.map_some] at htarget
      rw [activeVerdict_of_blamed hshape hblockage hid,
        activeVerdict_of_blamed hcarried htarget (List.mem_map_of_mem hid)]
      change (Verdict.invalid blockage.error.code blockage.error.message).Renamed f
        (.invalid (blockage.error.rename f).code (blockage.error.rename f).message)
      rw [ShapeError.code_rename]
      exact .invalid blockage.error
    · rw [activeVerdict_of_carried hshape fun blockage hblockage hid =>
          hblamed ⟨blockage, hblockage, hid⟩, activeVerdict_of_carried hcarried]
      · exact .ok shape
      · intro blockage' hblockage' hid'
        rw [htarget] at hblockage'
        obtain ⟨blockage, hblockage, rfl⟩ := Option.map_eq_some_iff.1 hblockage'
        obtain ⟨blamed, hid, hsame⟩ := List.mem_map.1 hid'
        have hblamed' : blamed = e.id :=
          hk (mem_edges_of_blamed hblockage blamed hid) (List.mem_map_of_mem he) hsame
        exact hblamed ⟨blockage, hblockage, hblamed' ▸ hid⟩

theorem edges_renamed : g.recompute.edges.Renamed k (Verdict.Renamed f)
    (g.rename f k).recompute.edges := by
  have hnames : {id | id ∈ g.recompute.edges.names} ⊆ {id | id ∈ g.edges.map (·.id)} := fun id =>
    mem_edges_names_iff.1
  have hids : (g.rename f k).edges.map (·.id) = (g.edges.map (·.id)).map k := by
    simp [rename, Function.comp_def]
  refine ⟨Table.names_perm (hk.mono hnames) fun id => ?_, fun id v hv => ?_⟩
  · rw [mem_edges_names_iff, hids, List.mem_map]
    exact exists_congr fun old => and_congr_left fun _ => mem_edges_names_iff.symm
  · obtain ⟨c, hc, rfl⟩ := Option.map_eq_some_iff.1 ((get?_verdicts id).symm.trans hv)
    have hmem : c ∈ g.classes := List.mem_of_find?_eq_some hc
    have hedge : ∀ c ∈ g.classes, c.1 ∈ g.edges := fun c hc =>
      map_fst_classes (g := g) ▸ List.mem_map_of_mem hc
    have hid : c.1.id = id := by simpa using List.find?_some hc
    -- the first edge of the new id is the first of the old one
    have hfirst : (g.rename f k).classes.find? (·.1.id == k id) =
        some (c.1.rename f k, c.2.map (Neglect.rename f)) := by
      rw [classes_rename hf, find?_map_congr (q := (·.1.id == id)) fun c' hc' => ?_, hc,
        Option.map_some]
      have hsame : k c'.1.id = k id ↔ c'.1.id = id :=
        hk.eq_iff (List.mem_map_of_mem (hedge c' hc')) (hid ▸ List.mem_map_of_mem (hedge c hmem))
      rw [Edge.id_rename, Bool.eq_iff_iff, beq_iff_eq, beq_iff_eq, hsame]
    refine ⟨verdict (g.rename f k).results (c.1.rename f k) (c.2.map (Neglect.rename f)), ?_, ?_⟩
    · exact (get?_verdicts (k id)).trans (by rw [hfirst, Option.map_some])
    · rcases c with ⟨e, _ | neglect⟩
      · exact activeVerdict_renamed hf hk (hedge _ hmem)
      · change (Verdict.ignored neglect.code).Renamed f (.ignored (neglect.rename f).code)
        rw [Neglect.code_rename]
        exact .ignored neglect.code

end Edges

/-- With distinct ids the verdicts are the same to the letter. -/
theorem edges_renamed_eq (hf : Set.InjOn f {id | id ∈ g.ids})
    (hids : (g.edges.map (·.id)).Nodup) (hk : Set.InjOn k {id | id ∈ g.edges.map (·.id)}) :
    g.recompute.edges.Renamed k (fun v v' => v' = v) (g.rename f k).recompute.edges := by
  obtain ⟨hnames, hvalues⟩ := edges_renamed hf hk
  refine ⟨hnames, fun id v hv => ?_⟩
  obtain ⟨v', hv', hrenamed⟩ := hvalues id v hv
  refine ⟨v', hv', ?_⟩
  cases hrenamed with
  | invalid error => rw [ShapeError.rename_of_blaming (code_mem_blaming hids hv)]
  | ok | inactive | ignored => rfl

/-- **Names do not matter.** Under other names that keep the nodes and the edges of a graph apart,
every node has its old result, with the nodes and edges that it mentions renamed; every edge id has
its old verdict, to the letter if edge ids are distinct, and otherwise but for a node that its
message may name; and the same warnings are given in the same order. So nothing depends on the order
of the names, in which the nodes are visited. -/
theorem names_never_matter (g : Graph) (f : NodeId → NodeId) (k : EdgeId → EdgeId)
    (hf : Set.InjOn f {id | id ∈ g.ids}) (hk : Set.InjOn k {id | id ∈ g.edges.map (·.id)}) :
    g.recompute.nodes.Renamed f (fun r r' => r' = r.rename f k) (g.rename f k).recompute.nodes ∧
    g.recompute.edges.Renamed k (Verdict.Renamed f) (g.rename f k).recompute.edges ∧
    ((g.edges.map (·.id)).Nodup →
      g.recompute.edges.Renamed k (fun v v' => v' = v) (g.rename f k).recompute.edges) ∧
    Forall₂ (Diagnostic.Renamed f k) g.recompute.warnings (g.rename f k).recompute.warnings :=
  ⟨nodes_renamed hf, edges_renamed hf hk, fun hids => edges_renamed_eq hf hids hk,
    warnings_renamed hf⟩

/-- An image of an unknown dataset that enters a chain, a node that feeds itself, and an edge to a
node that does not exist. -/
def tangled : Graph :=
  ⟨Table.ofList [("a", ⟨.input, Table.empty.insert "dataset" (.text "unheard of")⟩),
      ("b", ⟨.softmax, Table.empty⟩), ("c", ⟨.activation, Table.empty⟩),
      ("d", ⟨.activation, Table.empty⟩)],
    [⟨"first", "a", "out", "b", "in"⟩, ⟨"second", "b", "out", "c", "in"⟩,
      ⟨"third", "d", "out", "d", "in"⟩, ⟨"lost", "b", "out", "ghost", "in"⟩], []⟩

/-- The source and the target of the first edge exchange their names, and so do two edges. -/
theorem names_never_matter_tangled :
    let swapped := tangled.rename (Equiv.swap "a" "b") (Equiv.swap "first" "second")
    swapped.recompute.nodes.get? "c" =
        some (.blocked ⟨.upstreamError "b", some "in", ["first"]⟩) ∧
      swapped.recompute.nodes.get? "d" = some cyclic ∧
      swapped.recompute.edges.get? "second" = some .inactive ∧
      swapped.recompute.warnings.length = 1 := by
  intro swapped
  obtain ⟨⟨-, hnodes⟩, -, hedges, hwarnings⟩ := names_never_matter tangled (Equiv.swap "a" "b")
    (Equiv.swap "first" "second") (Equiv.injective _).injOn (Equiv.injective _).injOn
  obtain ⟨-, hedges⟩ := hedges (by decide)
  refine ⟨?_, ?_, ?_, ?_⟩
  · obtain ⟨r, hr, rfl⟩ := hnodes "c" (.blocked ⟨.upstreamError "a", some "in", ["second"]⟩)
      (by decide +kernel)
    rw [show Equiv.swap "a" "b" "c" = "c" by decide] at hr
    rw [hr]
    decide
  · obtain ⟨r, hr, rfl⟩ := hnodes "d" cyclic (by decide +kernel)
    rw [show Equiv.swap "a" "b" "d" = "d" by decide] at hr
    exact hr
  · obtain ⟨v, hv, rfl⟩ := hedges "first" .inactive (by decide +kernel)
    rw [Equiv.swap_apply_left] at hv
    exact hv
  · rw [← hwarnings.length_eq]
    decide +kernel

end Graph

end ShapeFlow
