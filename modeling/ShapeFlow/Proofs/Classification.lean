import ShapeFlow.Proofs.Permutation
import ShapeFlow.Proofs.Verdict

/-!
# How edges are judged

* `Graph.codeAt`: the judgement on an edge, in view of all edges before it.
* `Graph.exists_active_iff`: an edge that fits repeats an edge before it iff it repeats an active
  one.
* `Graph.classes_eq_judgements`: **the judgements on a graph are these.**
* `Graph.edges_are_classified`: what follows for active edges, verdicts and warnings.
-/

namespace ShapeFlow.Graph

variable {g : Graph} {active before : List Edge} {a b e : Edge} {i : Nat} {code : Code}

/-! ## Judgements -/

/-- Both ends of an edge exist. -/
def Attached (g : Graph) (e : Edge) : Prop :=
  (g.node? e.source).isSome = true ∧ (g.node? e.target).isSome = true

instance (g : Graph) (e : Edge) : Decidable (g.Attached e) :=
  inferInstanceAs (Decidable ((g.node? e.source).isSome = true ∧ (g.node? e.target).isSome = true))

theorem fits_iff : g.Fits e ↔
    (g.node? e.source).any (·.block.hasOutput e.sourceHandle) = true ∧
      (g.node? e.target).any (fun node => (node.block.input? e.targetHandle).isSome) = true := by
  simp only [Fits, Option.any_eq_true, Option.isSome_iff_exists]
  constructor
  · rintro ⟨source, target, handle, hs, ht, ho, hi⟩
    exact ⟨⟨source, hs, ho⟩, target, ht, handle, hi⟩
  · rintro ⟨⟨source, hs, ho⟩, target, ht, handle, hi⟩
    exact ⟨source, target, handle, hs, ht, ho, hi⟩

instance (g : Graph) (e : Edge) : Decidable (g.Fits e) := decidable_of_iff _ fits_iff.symm

/-- Some edge before a position is the same connection. -/
def Repeats (g : Graph) (i : Nat) (e : Edge) : Prop :=
  ∃ b ∈ g.edges.take i, b.sameConnection e = true

instance (g : Graph) (i : Nat) (e : Edge) : Decidable (g.Repeats i e) :=
  inferInstanceAs (Decidable (∃ b ∈ g.edges.take i, b.sameConnection e = true))

/-- The code with which an edge at a position is ignored, if it is: for an end that is missing, else
for a handle that is not declared, else for an edge before it that is the same connection. -/
def codeAt (g : Graph) (i : Nat) (e : Edge) : Option Code :=
  if ¬ g.Attached e then some .danglingEdge
  else if ¬ g.Fits e then some .unknownHandle
  else if g.Repeats i e then some .duplicateEdge
  else none

/-- Every edge in the order of the graph with the code for its position. -/
def judgements (g : Graph) : List (Edge × Option Code) :=
  g.edges.mapIdx fun i e => (e, g.codeAt i e)

theorem Fits.attached (h : g.Fits e) : g.Attached e := by
  obtain ⟨source, target, -, hs, ht, -, -⟩ := h
  exact ⟨by rw [hs, Option.isSome_some], by rw [ht, Option.isSome_some]⟩

theorem codeAt_eq_none_iff : g.codeAt i e = none ↔ g.Fits e ∧ ¬ g.Repeats i e := by
  unfold codeAt
  split
  · next hattached => exact iff_of_false nofun fun h => hattached h.1.attached
  · split
    · next hfits => exact iff_of_false nofun fun h => hfits h.1
    · next hfits =>
      rw [and_iff_right (not_not.1 hfits)]
      split
      · next hrepeats => exact iff_of_false nofun (not_not.2 hrepeats)
      · next hrepeats => exact iff_of_true rfl hrepeats

/-- The code of a judgement that looks at some edges only. -/
theorem code_neglect? : (g.neglect? active e).map Neglect.code =
    if ¬ g.Attached e then some .danglingEdge
    else if ¬ g.Fits e then some .unknownHandle
    else if ∃ a ∈ active, a.sameConnection e = true then some .duplicateEdge
    else none := by
  unfold neglect?
  cases hs : g.node? e.source with
  | none => simp [Attached, hs, Neglect.code]
  | some source =>
    cases ht : g.node? e.target with
    | none => simp [Attached, ht, Neglect.code]
    | some target =>
      have hattached : g.Attached e :=
        ⟨by rw [hs, Option.isSome_some], by rw [ht, Option.isSome_some]⟩
      have hfits : g.Fits e ↔ source.block.hasOutput e.sourceHandle = true ∧
          (target.block.input? e.targetHandle).isSome = true := by
        rw [fits_iff, hs, ht, Option.any_some, Option.any_some]
      rw [if_neg (not_not.2 hattached)]
      cases ho : source.block.hasOutput e.sourceHandle with
      | false => simp [hfits, ho, Neglect.code]
      | true =>
        cases hi : target.block.input? e.targetHandle with
        | none => simp [hfits, ho, hi, Neglect.code]
        | some handle =>
          rw [if_neg (not_not.2 (hfits.2 ⟨ho, by rw [hi, Option.isSome_some]⟩))]
          simp only [List.any_eq_true]
          split <;> simp_all [Neglect.code]

/-! ## Kept edges stand for all before them -/

theorem Fits.congr (h : a.sameConnection b = true) (hb : g.Fits b) : g.Fits a := by
  simp only [Edge.sameConnection, Bool.and_eq_true, beq_iff_eq] at h
  obtain ⟨⟨⟨hsource, hsourceHandle⟩, htarget⟩, htargetHandle⟩ := h
  unfold Fits
  rw [hsource, hsourceHandle, htarget, htargetHandle]
  exact hb

/-- **An edge that fits repeats an edge before it iff it repeats one that was kept**, however many
of those before it were ignored: a copy of it fits as well, and of the copies that fit one is
kept. -/
theorem exists_active_iff (hfits : g.Fits e) :
    (∃ a ∈ g.activeFrom [] before, a.sameConnection e = true) ↔
      ∃ b ∈ before, b.sameConnection e = true := by
  have hkept : e.unnamed ∈ (g.activeFrom [] before).map Edge.unnamed ↔
      e.unnamed ∈ ([] : List Edge).map Edge.unnamed ∨
        ∃ b ∈ before, g.Fits b ∧ b.unnamed = e.unnamed := mem_unnamed_activeFrom before
  simp only [List.map_nil, List.not_mem_nil, false_or, List.mem_map] at hkept
  simp only [Edge.sameConnection_iff]
  rw [hkept]
  constructor
  · rintro ⟨b, hb, -, hsame⟩
    exact ⟨b, hb, hsame⟩
  · rintro ⟨b, hb, hsame⟩
    have hcopy : g.Fits b := hfits.congr (Edge.sameConnection_iff.2 hsame)
    exact ⟨b, hb, hcopy, hsame⟩

/-- The judgement on the edge behind some edges. -/
theorem code_neglect?_eq_codeAt {after : List Edge} (hsplit : g.edges = before ++ e :: after) :
    (g.neglect? (g.activeFrom [] before) e).map Neglect.code = g.codeAt before.length e := by
  have hbefore : g.edges.take before.length = before := by rw [hsplit, List.take_left]
  rw [code_neglect?]
  by_cases hfits : g.Fits e
  · simp only [codeAt, Repeats, hbefore, exists_active_iff hfits]
  · simp only [codeAt, hfits, not_false_eq_true, if_true]

theorem classesFrom_eq_mapIdx {after : List Edge} (hsplit : g.edges = before ++ after) :
    (g.classesFrom (g.activeFrom [] before) after).map (fun c => (c.1, c.2.map Neglect.code)) =
      after.mapIdx fun i e => (e, g.codeAt (before.length + i) e) := by
  induction after generalizing before with
  | nil => rfl
  | cons x xs ih =>
    have hsplit' : g.edges = (before ++ [x]) ++ xs := by rw [hsplit, List.append_cons]
    have hrest := ih hsplit'
    rw [activeFrom_append] at hrest
    rw [classesFrom_cons, List.map_cons, hrest, code_neglect?_eq_codeAt hsplit, List.mapIdx_cons]
    simp only [List.length_append, List.length_singleton, Nat.add_zero, Nat.add_assoc,
      Nat.add_comm 1]

/-- **Every edge is judged by all edges before it.** -/
theorem classes_eq_judgements :
    g.classes.map (fun c => (c.1, c.2.map Neglect.code)) = g.judgements := by
  have h : (g.classesFrom (g.activeFrom [] []) g.edges).map (fun c => (c.1, c.2.map Neglect.code)) =
      g.edges.mapIdx fun i e => (e, g.codeAt (0 + i) e) := classesFrom_eq_mapIdx rfl
  simp only [Nat.zero_add] at h
  exact h

/-! ## Active edges, verdicts and warnings -/

theorem activeEdges_eq_judgements :
    g.activeEdges = g.judgements.filterMap fun c => if c.2.isNone then some c.1 else none := by
  rw [activeEdges_eq_filterMap, ← classes_eq_judgements, List.filterMap_map]
  simp only [Function.comp_def, Option.isNone_map]

/-- **Edges are ignored for their code**: an edge id has the verdict that it is ignored iff the
first edge of this id is. -/
theorem get?_edges_eq_ignored_iff {id : EdgeId} : g.recompute.edges.get? id = some (.ignored code) ↔
    (g.judgements.find? (·.1.id == id)).bind (·.2) = some code := by
  have hfind : g.judgements.find? (·.1.id == id) =
      (g.classes.find? (·.1.id == id)).map fun c => (c.1, c.2.map Neglect.code) := by
    rw [← classes_eq_judgements, List.find?_map]
    rfl
  have hverdict : g.recompute.edges.get? id =
      (g.classes.find? (·.1.id == id)).map fun c => verdict g.results c.1 c.2 := get?_verdicts id
  rw [hverdict, hfind]
  cases g.classes.find? (·.1.id == id) with
  | none => simp
  | some c =>
    cases hneglect : c.2 with
    | some neglect => simp [verdict, hneglect]
    | none =>
      have hignored : (verdict g.results c.1 none).isIgnored = false := isIgnored_verdict
      have hne : verdict g.results c.1 none ≠ .ignored code := by
        intro heq
        rw [heq] at hignored
        cases hignored
      simpa [hneglect] using hne

/-- A warning about an edge names it and has the code of the judgement. -/
theorem code_warning (e : Edge) (neglect : Neglect) :
    ((neglect.warning e).code, (neglect.warning e).edge) = (some neglect.code, some e.id) := by
  cases neglect <;> rfl

theorem Fits.inputs_ne_nil (h : g.Fits e) :
    ∃ target, g.node? e.target = some target ∧ target.block.inputs ≠ [] := by
  obtain ⟨-, target, handle, -, ht, -, hi⟩ := h
  exact ⟨target, ht, List.ne_nil_of_mem (List.mem_of_find?_eq_some hi)⟩

/-- **How the edges of a graph are judged.** The judgement on an edge is that in view of all edges
before it, although only those that were kept are looked at. An edge is active iff both of its ends
exist and have its handles and no edge before it is the same connection. A graph warns of every
repeated node id and then of every edge that is ignored, once, in order and with its code, and an
ignored edge has a verdict with this code. No active edge touches a board or enters a node without
inputs. -/
theorem edges_are_classified (g : Graph) :
    g.classes.map (fun c => (c.1, c.2.map Neglect.code)) = g.judgements ∧
    g.activeEdges = g.judgements.filterMap (fun c => if c.2.isNone then some c.1 else none) ∧
    (∀ i e, g.codeAt i e = none ↔ g.Fits e ∧ ¬ g.Repeats i e) ∧
    (∀ id code, g.recompute.edges.get? id = some (.ignored code) ↔
      (g.judgements.find? (·.1.id == id)).bind (·.2) = some code) ∧
    (∃ again ignored, g.recompute.warnings = again ++ ignored ∧
      again.map (fun w => (w.code, w.node, w.edge)) =
        g.duplicates.map (fun id => (some .duplicateNode, some id, none)) ∧
      ignored.map (fun w => (w.code, w.edge)) =
        g.judgements.filterMap fun c => c.2.map fun code => (some code, some c.1.id)) ∧
    ∀ e ∈ g.activeEdges, g.CarriesTensors e.source ∧ g.CarriesTensors e.target ∧
      ∃ target, g.node? e.target = some target ∧ target.block.inputs ≠ [] := by
  refine ⟨classes_eq_judgements, activeEdges_eq_judgements, fun i e => codeAt_eq_none_iff,
    fun id code => get?_edges_eq_ignored_iff, ⟨_, _, warnings_eq, ?_, ?_⟩, fun e he => ?_⟩
  · rw [List.map_map]
    rfl
  · rw [← classes_eq_judgements, List.map_filterMap, List.filterMap_map]
    refine List.filterMap_congr fun c _ => ?_
    simp only [Option.map_map, Function.comp_def, code_warning]
  · have hfits := fits_of_mem_activeEdges he
    exact ⟨hfits.source_carriesTensors, hfits.target_carriesTensors, hfits.inputs_ne_nil⟩

/-- A text and a sum with edges. -/
def textAndSum (edges : List Edge) : Graph :=
  ⟨Table.ofList [("a", ⟨.textInput, .empty⟩), ("sum", ⟨.add, .empty⟩)], edges, ["a"]⟩

/-- An edge to a handle that the sum does not have, before and behind one to its input, which is
then repeated; and an edge to nowhere, twice. -/
theorem edges_are_classified_mixed :
    let edge (id : EdgeId) (target : NodeId) (handle : String) : Edge :=
      ⟨id, "a", "out", target, handle⟩
    let g := textAndSum [edge "0" "sum" "x", edge "1" "sum" "in", edge "2" "sum" "x",
      edge "3" "sum" "in", edge "4" "b" "in", edge "5" "b" "in"]
    g.activeEdges = [edge "1" "sum" "in"] ∧
    g.classes.map (fun c => c.2.map Neglect.code) =
      [some .unknownHandle, none, some .unknownHandle, some .duplicateEdge, some .danglingEdge,
        some .danglingEdge] := by
  intro edge g
  obtain ⟨hclasses, hactive, -⟩ := edges_are_classified g
  have hcodes : g.judgements.map (·.2) = [some .unknownHandle, none, some .unknownHandle,
      some .duplicateEdge, some .danglingEdge, some .danglingEdge] := by
    decide +kernel
  constructor
  · rw [hactive]
    decide +kernel
  · rw [← hcodes, ← hclasses, List.map_map]
    rfl

end ShapeFlow.Graph
