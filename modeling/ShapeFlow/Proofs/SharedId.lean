import ShapeFlow.Proofs.Blame

/-!
# Edges that share an id

An id keeps the verdict on the first edge that has it. This verdict asks whether the id is among
those that the target blames, and an id does not tell edges apart: the first edge is also invalid
for what is held against a later one of its id that enters the same node.

* `Graph.FirstActive`: the first edge of an id takes part in the computation.
* `Graph.BlockedBy`: the failure of a node.
* `Graph.invalid_iff_attributed`: **an id is invalid iff the failure of the first edge's target is
  attributed to some edge of this id**, which is the first one itself if no other edge of the id
  enters there.
-/

namespace ShapeFlow.Graph

variable {g : Graph} {active edges : List Edge} {e : Edge} {id : EdgeId} {neglect : Neglect}
  {f : Failure} {code : Code} {message : String}

/-! ## The first edge of an id -/

/-- The first edge of an id takes part in the computation. -/
def FirstActive (g : Graph) (id : EdgeId) (e : Edge) : Prop :=
  g.edges.find? (·.id == id) = some e ∧ e ∈ g.activeEdges

theorem FirstActive.id_eq (h : g.FirstActive id e) : e.id = id := by
  have hfound := List.find?_some h.1
  exact beq_iff_eq.1 hfound

/-- An edge that is neglected is neglected again behind more active edges. -/
theorem neglect?_ne_none_activeFrom (h : g.neglect? active e ≠ none) :
    g.neglect? (g.activeFrom active edges) e ≠ none := by
  intro hnone
  obtain ⟨hfits, hall⟩ := neglect?_eq_none_iff.1 hnone
  rw [activeFrom_eq_filterMap] at hall
  exact h (neglect?_eq_none_iff.2 ⟨hfits, fun a ha => hall a (List.mem_append_left _ ha)⟩)

theorem not_mem_classesFrom (h : g.neglect? active e ≠ none) :
    (e, none) ∉ g.classesFrom active edges := by
  induction edges generalizing active with
  | nil => exact List.not_mem_nil
  | cons x xs ih =>
    rw [classesFrom_cons]
    intro hmem
    rcases List.mem_cons.1 hmem with heq | hmem
    · obtain ⟨rfl, hnone⟩ := Prod.mk.inj heq
      exact h hnone.symm
    · exact ih (neglect?_ne_none_activeFrom h) hmem

/-- An edge that comes first of its id is not neglected at first and active later on. -/
theorem not_mem_of_find?_classesFrom
    (h : (g.classesFrom active edges).find? (·.1.id == id) = some (e, some neglect)) :
    (e, none) ∉ g.classesFrom active edges := by
  have hid : e.id = id := by simpa using List.find?_some h
  induction edges generalizing active with
  | nil => cases h
  | cons x xs ih =>
    rw [classesFrom_cons] at h ⊢
    rw [List.find?_cons] at h
    intro hmem
    split at h
    · -- this is the first edge of the id
      obtain ⟨rfl, hneglect⟩ := Prod.mk.inj (Option.some.inj h)
      have hne : g.neglect? active x ≠ none := by
        rw [hneglect]
        exact Option.some_ne_none neglect
      rw [← classesFrom_cons] at hmem
      exact not_mem_classesFrom hne hmem
    · next hx =>
      rcases List.mem_cons.1 hmem with heq | hmem
      · obtain ⟨rfl, -⟩ := Prod.mk.inj heq
        rw [beq_eq_false_iff_ne] at hx
        exact hx hid
      · exact ih h hmem

/-- **The first edge of an id is active iff it is not neglected where it comes first.** -/
theorem firstActive_iff : g.FirstActive id e ↔ g.classes.find? (·.1.id == id) = some (e, none) := by
  unfold FirstActive
  rw [find?_edges, Option.map_eq_some_iff]
  constructor
  · rintro ⟨⟨⟨first, neglect?⟩, hfind, rfl⟩, hactive⟩
    cases neglect? with
    | none => exact hfind
    | some neglect =>
      exact absurd (mem_activeEdges_iff.1 hactive) (not_mem_of_find?_classesFrom hfind)
  · intro hfind
    exact ⟨⟨_, hfind, rfl⟩, mem_activeEdges_iff.2 (List.mem_of_find?_eq_some hfind)⟩

/-! ## The failure of a node -/

/-- The failure of a node that is not behind a cycle. -/
def BlockedBy (g : Graph) (id : NodeId) (f : Failure) : Prop :=
  ∃ node, (id, node) ∈ g.tensorNodes ∧ ¬ g.recompute.ReportsCycle id ∧
    node.Fails (g.incoming id) g.results f

theorem BlockedBy.blockage {id : NodeId} (h : g.BlockedBy id f) :
    g.recompute.blockage? id =
      some ⟨f.error, f.handle, blamedEdges f (g.incoming id) g.results⟩ := by
  obtain ⟨node, hmem, hcycle, hfails⟩ := h
  exact blockage_of_fails hmem hcycle hfails

/-- **A node blames an id iff its failure is attributed to an edge of this id.** -/
theorem blames_iff {node : NodeId} {error : ShapeError} :
    (∃ blockage, g.recompute.blockage? node = some blockage ∧ blockage.error = error ∧
        id ∈ blockage.edges) ↔
      ∃ f, g.BlockedBy node f ∧ f.error = error ∧
        ∃ other, Attributed f (g.incoming node) g.results other ∧ other.id = id := by
  constructor
  · rintro ⟨blockage, hblockage, herror, hid⟩
    have hcycle : ¬ g.recompute.ReportsCycle node := by
      intro hcycle
      -- behind a cycle no edge is blamed
      rw [Recomputation.blockage?, show g.recompute.nodes.get? node = some cyclic from
        get?_of_reportsCycle hcycle] at hblockage
      cases hblockage
      cases hid
    obtain ⟨placed, f, hmem, hfails, rfl⟩ := fails_of_blockage hblockage hcycle
    exact ⟨f, ⟨placed, hmem, hcycle, hfails⟩, herror, mem_blamedEdges_iff_attributed.1 hid⟩
  · rintro ⟨f, hblocked, herror, hother⟩
    exact ⟨_, hblocked.blockage, herror, mem_blamedEdges_iff_attributed.2 hother⟩

/-! ## Invalid ids -/

theorem activeVerdict_eq_invalid_iff {results : Table Result} :
    activeVerdict results e = .invalid code message ↔ (carried? results e).isSome = true ∧
      ∃ blockage, (results.get? e.target).bind Result.blockage? = some blockage ∧
        e.id ∈ blockage.edges ∧ blockage.error.code = code ∧ blockage.error.message = message := by
  cases hcarried : carried? results e with
  | none =>
    rw [activeVerdict_of_bare hcarried]
    simp
  | some shape =>
    cases hblockage : (results.get? e.target).bind Result.blockage? with
    | none =>
      rw [activeVerdict_of_carried hcarried (by simp [hblockage])]
      simp
    | some blockage =>
      by_cases hid : e.id ∈ blockage.edges
      · rw [activeVerdict_of_blamed hcarried hblockage hid]
        simp [hid]
      · have hspared : ∀ other, (results.get? e.target).bind Result.blockage? = some other →
            e.id ∉ other.edges := by
          intro other hother
          rw [hblockage] at hother
          rwa [← Option.some.inj hother]
        rw [activeVerdict_of_carried hcarried hspared]
        simp [hid]

theorem get?_eq_invalid_iff :
    g.recompute.edges.get? id = some (.invalid code message) ↔
      ∃ e, g.FirstActive id e ∧ activeVerdict g.results e = .invalid code message := by
  change (g.verdicts g.results).get? id = _ ↔ _
  rw [get?_verdicts, Option.map_eq_some_iff]
  constructor
  · rintro ⟨⟨e, neglect?⟩, hfind, hverdict⟩
    cases neglect? with
    | none => exact ⟨e, firstActive_iff.2 hfind, hverdict⟩
    | some neglect => cases hverdict
  · rintro ⟨e, hfirst, hverdict⟩
    exact ⟨(e, none), firstActive_iff.1 hfirst, hverdict⟩

/-- An id is invalid for a failure that is attributed to an edge of this id. -/
theorem get?_eq_invalid_iff_attributed :
    g.recompute.edges.get? id = some (.invalid code message) ↔
      ∃ e f, g.FirstActive id e ∧ (g.recompute.shape? e.source).isSome = true ∧
        g.BlockedBy e.target f ∧ f.error.code = code ∧ f.error.message = message ∧
        ∃ other, Attributed f (g.incoming e.target) g.results other ∧ other.id = id := by
  rw [get?_eq_invalid_iff]
  constructor
  · rintro ⟨e, hfirst, hverdict⟩
    obtain ⟨hcarried, blockage, hblockage, hid, hcode, hmessage⟩ :=
      activeVerdict_eq_invalid_iff.1 hverdict
    rw [hfirst.id_eq] at hid
    obtain ⟨f, hblocked, herror, hother⟩ := blames_iff.1 ⟨blockage, hblockage, rfl, hid⟩
    rw [← herror] at hcode hmessage
    exact ⟨e, f, hfirst, hcarried, hblocked, hcode, hmessage, hother⟩
  · rintro ⟨e, f, hfirst, hcarried, hblocked, hcode, hmessage, hother⟩
    obtain ⟨blockage, hblockage, herror, hid⟩ := blames_iff.2 ⟨f, hblocked, rfl, hother⟩
    rw [← hfirst.id_eq] at hid
    rw [← herror] at hcode hmessage
    exact ⟨e, hfirst, activeVerdict_eq_invalid_iff.2
      ⟨hcarried, blockage, hblockage, hid, hcode, hmessage⟩⟩

/-- **When an id is invalid**, repeated or not. The first edge of the id is active and its source
has a shape, and the failure of its target is attributed to an edge of this id. If no other edge of
the id enters that target, it is the first edge itself. -/
theorem invalid_iff_attributed (g : Graph) (id : EdgeId) (code : Code) (message : String) :
    (g.recompute.edges.get? id = some (.invalid code message) ↔
      ∃ e f, g.FirstActive id e ∧ (g.recompute.shape? e.source).isSome = true ∧
        g.BlockedBy e.target f ∧ f.error.code = code ∧ f.error.message = message ∧
        ∃ other, Attributed f (g.incoming e.target) g.results other ∧ other.id = id) ∧
    ∀ e, g.FirstActive id e → (∀ other ∈ g.incoming e.target, other.id = id → other = e) →
      (g.recompute.edges.get? id = some (.invalid code message) ↔
        ∃ f, (g.recompute.shape? e.source).isSome = true ∧ g.BlockedBy e.target f ∧
          f.error.code = code ∧ f.error.message = message ∧
          Attributed f (g.incoming e.target) g.results e) := by
  refine ⟨get?_eq_invalid_iff_attributed, fun e hfirst halone => ?_⟩
  rw [get?_eq_invalid_iff_attributed]
  constructor
  · rintro ⟨first, f, hother, hcarried, hblocked, hcode, hmessage, other, hattributed, hid⟩
    -- there is one first edge
    obtain rfl : first = e := Option.some.inj (hother.1.symm.trans hfirst.1)
    obtain rfl := halone other hattributed.enters hid
    exact ⟨f, hcarried, hblocked, hcode, hmessage, hattributed⟩
  · rintro ⟨f, hcarried, hblocked, hcode, hmessage, hattributed⟩
    exact ⟨e, f, hfirst, hcarried, hblocked, hcode, hmessage, e, hattributed, hfirst.id_eq⟩

/-- A text that enters an attention by its three handles, over edges of one id. The key comes first,
and the query is too wide. -/
def oneId : Graph :=
  let enter (handle : String) : Edge := ⟨Edge.defaultId "a" "attn", "a", "out", "attn", handle⟩
  ⟨Table.ofList [("a", ⟨.textInput, Table.empty.insert "seq_len" (.number 64)⟩),
    ("attn", ⟨.attention, Table.empty.insert "embed_dim" (.number 32)⟩)],
    [enter "key", enter "query", enter "value"], []⟩

/-- The key is invalid for what is held against the query. -/
theorem first_edge_takes_blame :
    oneId.FirstActive "e-a-attn" ⟨"e-a-attn", "a", "out", "attn", "key"⟩ ∧
      oneId.recompute.edges.get? "e-a-attn" =
        some (.invalid .embeddingDimMismatch "embedding dimension mismatch: expected 32, got 64") ∧
      ∀ f, oneId.BlockedBy "attn" f → ¬ Attributed f (oneId.incoming "attn") oneId.results
        ⟨"e-a-attn", "a", "out", "attn", "key"⟩ := by
  refine ⟨⟨by decide +kernel, by decide +kernel⟩, by decide +kernel, ?_⟩
  intro f hblocked hattributed
  have hquery : (oneId.recompute.blockage? "attn").map (·.handle) = some (some "query") := by
    decide +kernel
  rw [hblocked.blockage, Option.map_some, hattributed.handle] at hquery
  have hhandles : "key" = "query" := Option.some.inj (Option.some.inj hquery)
  exact absurd hhandles (by decide)

end ShapeFlow.Graph
