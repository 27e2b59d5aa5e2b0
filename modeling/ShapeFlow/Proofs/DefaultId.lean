import ShapeFlow.Graph.Document
import ShapeFlow.Proofs.Outcome
import ShapeFlow.Proofs.Verdict

/-!
# Default ids

An edge without an id is given one that is glued from the names of its ends by hyphens. Names may
have hyphens of their own, so the ends cannot always be told from the id.

* `append_cons_eq_iff`: the ways in which a list can be read as two parts around a separator.
* `Edge.Shifted`: ends of which a piece has moved from the target's name to the source's.
* `Edge.defaultId_eq_iff`: **two default ids are equal iff their ends are equal or shifted.**
* `Graph.default_ids_of_text`: what this says of the edges of a document and of their verdicts.
-/

namespace ShapeFlow

/-! ## Gluing -/

/-- A list is read as two parts around a separator in two ways only if one way finds a separator
within the part in which the other has none. -/
theorem append_cons_eq_iff {α : Type} {c : α} {s t s' t' : List α} :
    s ++ c :: t = s' ++ c :: t' ↔ (s = s' ∧ t = t') ∨
      (∃ u, s' = s ++ c :: u ∧ t = u ++ c :: t') ∨ ∃ u, s = s' ++ c :: u ∧ t' = u ++ c :: t := by
  constructor
  · intro h
    rcases List.append_eq_append_iff.1 h with ⟨u, hs, ht⟩ | ⟨u, hs, ht⟩
    · cases u with
      | nil => exact Or.inl ⟨by simpa using hs.symm, by simpa using ht⟩
      | cons d u =>
        obtain ⟨rfl, hrest⟩ := List.cons.inj ht
        exact Or.inr (Or.inl ⟨u, hs, hrest⟩)
    · cases u with
      | nil => exact Or.inl ⟨by simpa using hs, by simpa using ht.symm⟩
      | cons d u =>
        obtain ⟨rfl, hrest⟩ := List.cons.inj ht
        exact Or.inr (Or.inr ⟨u, hs, hrest⟩)
  · rintro (⟨rfl, rfl⟩ | ⟨u, rfl, rfl⟩ | ⟨u, rfl, rfl⟩)
    · rfl
    · rw [List.append_assoc, List.cons_append]
    · rw [List.append_assoc, List.cons_append]

namespace Edge

variable {source target source' target' : NodeId}

/-- The other ends have a piece of the target's name at the end of the source's. -/
def Shifted (source target source' target' : NodeId) : Prop :=
  ∃ piece : String, source' = source ++ "-" ++ piece ∧ target = piece ++ "-" ++ target'

theorem shifted_iff_toList : Shifted source target source' target' ↔
    ∃ piece : List Char, source'.toList = source.toList ++ '-' :: piece ∧
      target.toList = piece ++ '-' :: target'.toList := by
  constructor
  · rintro ⟨piece, rfl, rfl⟩
    exact ⟨piece.toList, by simp, by simp⟩
  · rintro ⟨piece, hsource, htarget⟩
    refine ⟨String.ofList piece, String.toList_inj.1 ?_, String.toList_inj.1 ?_⟩
    · simpa using hsource
    · simpa using htarget

/-- What is shifted brings hyphens to both names. -/
theorem Shifted.hyphens (h : Shifted source target source' target') :
    '-' ∈ source'.toList ∧ '-' ∈ target.toList := by
  obtain ⟨piece, hsource, htarget⟩ := shifted_iff_toList.1 h
  rw [hsource, htarget]
  simp

theorem toList_defaultId (source target : NodeId) :
    (defaultId source target).toList = 'e' :: '-' :: (source.toList ++ '-' :: target.toList) := by
  simp [defaultId, toString]

/-- **Two default ids are equal** iff their ends are equal or shifted. -/
theorem defaultId_eq_iff : defaultId source target = defaultId source' target' ↔
    (source = source' ∧ target = target') ∨ Shifted source target source' target' ∨
      Shifted source' target' source target := by
  rw [← String.toList_inj, toList_defaultId, toList_defaultId, List.cons.injEq, List.cons.injEq,
    append_cons_eq_iff, shifted_iff_toList, shifted_iff_toList, String.toList_inj,
    String.toList_inj]
  simp only [true_and]

end Edge

/-! ## Documents -/

theorem EdgeEntry.edge_id {entry : EdgeEntry} (h : entry.id = none) :
    entry.edge.id = Edge.defaultId entry.source entry.target := by
  rw [edge, h]
  rfl

theorem Document.edges_of_graph {document : Document} {g : Graph} (h : document.graph = .ok g) :
    g.edges = document.edges.map EdgeEntry.edge := by
  obtain ⟨filled, -, hg⟩ := bind_eq_ok_iff.1 h
  obtain rfl := Except.ok.inj hg
  rfl

namespace Graph

variable {g : Graph} {e : Edge}

/-- The verdict under an id is the one on the first edge of this id. -/
def Answers (g : Graph) (id : EdgeId) : Prop :=
  ∃ c, g.classes.find? (·.1.id == id) = some c ∧
    g.recompute.edges.get? id = some (verdict g.results c.1 c.2)

/-- Every edge finds a verdict under its id. -/
theorem answers_of_mem (he : e ∈ g.edges) : g.Answers e.id := by
  have hfirst : (g.edges.find? (·.id == e.id)).isSome :=
    List.find?_isSome.2 ⟨e, he, beq_self_eq_true _⟩
  rw [find?_edges, Option.isSome_map] at hfirst
  obtain ⟨c, hc⟩ := Option.isSome_iff_exists.1 hfirst
  refine ⟨c, hc, ?_⟩
  change (g.verdicts g.results).get? e.id = _
  rw [get?_verdicts, hc]
  rfl

/-- **Default ids** of edges between other nodes are the same iff a piece of one name has moved to
the other, as can only be when a source and the other edge's target have hyphens. Under each id
there is a verdict. -/
theorem default_ids_of_text (text : String) (g : Graph) (h : Graph.ofText text = .ok g) :
    ∃ document, Json.Decode.ofText Document.decode text = .ok document ∧
      g.edges = document.edges.map EdgeEntry.edge ∧
      ∀ a ∈ document.edges, ∀ b ∈ document.edges, a.id = none → b.id = none →
        (a.source ≠ b.source ∨ a.target ≠ b.target) →
          (a.edge.id = b.edge.id ↔ Edge.Shifted a.source a.target b.source b.target ∨
            Edge.Shifted b.source b.target a.source a.target) ∧
          (a.edge.id = b.edge.id → '-' ∈ b.source.toList ∧ '-' ∈ a.target.toList ∨
            '-' ∈ a.source.toList ∧ '-' ∈ b.target.toList) ∧
          g.Answers a.edge.id ∧ g.Answers b.edge.id := by
  obtain ⟨document, hdocument, hgraph⟩ := bind_eq_ok_iff.1 h
  have hedges := Document.edges_of_graph hgraph
  have hanswers : ∀ entry ∈ document.edges, g.Answers entry.edge.id := fun entry hentry =>
    answers_of_mem (hedges ▸ List.mem_map_of_mem hentry)
  refine ⟨document, ?_, hedges, fun a ha b hb hanone hbnone hdiffer => ?_⟩
  · cases hdecoded : Json.Decode.ofText Document.decode text with
    | error fault =>
      rw [hdecoded] at hdocument
      cases hdocument
    | ok decoded =>
      rw [hdecoded] at hdocument
      exact congrArg Except.ok (Except.ok.inj hdocument)
  · have hsame : ¬ (a.source = b.source ∧ a.target = b.target) := by
      rintro ⟨hsource, htarget⟩
      exact hdiffer.elim (fun hne => hne hsource) fun hne => hne htarget
    have hids : a.edge.id = b.edge.id ↔ Edge.Shifted a.source a.target b.source b.target ∨
        Edge.Shifted b.source b.target a.source a.target := by
      rw [EdgeEntry.edge_id hanone, EdgeEntry.edge_id hbnone, Edge.defaultId_eq_iff,
        or_iff_right hsame]
    refine ⟨hids, fun heq => ?_, hanswers a ha, hanswers b hb⟩
    rcases hids.1 heq with hshifted | hshifted
    · exact Or.inl hshifted.hyphens
    · exact Or.inr hshifted.hyphens

end Graph

/-- Edges without ids: from a node and from another whose name begins with the name of the first, to
a node and to another whose name ends with the name of the first, and to two inputs of one node. -/
def gluedText : String :=
  "\x7b\"nodes\":[\x7b\"id\":\"a\",\"type\":\"TextInput\"\x7d," ++
  "\x7b\"id\":\"a-b\",\"type\":\"TextInput\"\x7d,\x7b\"id\":\"b-c\",\"type\":\"Attention\"\x7d," ++
  "\x7b\"id\":\"c\",\"type\":\"Add\"\x7d]," ++
  "\"edges\":[\x7b\"source\":\"a-b\",\"target\":\"c\"\x7d," ++
  "\x7b\"source\":\"a\",\"target\":\"b-c\",\"targetHandle\":\"query\"\x7d," ++
  "\x7b\"source\":\"a\",\"target\":\"b-c\",\"targetHandle\":\"key\"\x7d," ++
  "\x7b\"source\":\"a\",\"target\":\"c\"\x7d]\x7d"

/-- The edges of the document. -/
def gluedEntries : List EdgeEntry :=
  [⟨none, "a-b", none, "c", none⟩, ⟨none, "a", none, "b-c", some "query"⟩,
    ⟨none, "a", none, "b-c", some "key"⟩, ⟨none, "a", none, "c", none⟩]

/-- The document has a graph, with one verdict for the first three edges. -/
theorem loads_gluedText : ∃ document g,
    Json.Decode.ofText Document.decode gluedText = .ok document ∧ document.graph = .ok g ∧
      document.edges = gluedEntries ∧ g.recompute.edges.names = ["e-a-b-c", "e-a-c"] := by
  have hcheck : (match Json.Decode.ofText Document.decode gluedText with
      | .ok document => match document.graph with
        | .ok g => decide (document.edges = gluedEntries ∧
            g.recompute.edges.names = ["e-a-b-c", "e-a-c"])
        | .error _ => false
      | .error _ => false) = true := by decide +kernel
  split at hcheck
  · next document hdocument =>
    split at hcheck
    · next g hgraph => exact ⟨document, g, hdocument, hgraph, of_decide_eq_true hcheck⟩
    · cases hcheck
  · cases hcheck

/-- The first three edges have one id, and so one verdict. -/
theorem default_ids_collide : ∃ document g,
    Json.Decode.ofText Document.decode gluedText = .ok document ∧ document.graph = .ok g ∧
      document.edges = gluedEntries ∧
      g.edges.map (·.id) = ["e-a-b-c", "e-a-b-c", "e-a-b-c", "e-a-c"] ∧
      g.recompute.edges.names = ["e-a-b-c", "e-a-c"] := by
  obtain ⟨document, g, hdocument, hgraph, hentries, hnames⟩ := loads_gluedText
  refine ⟨document, g, hdocument, hgraph, hentries, ?_, hnames⟩
  rw [Document.edges_of_graph hgraph, hentries]
  decide

/-- The first two edges are shifted against each other; the last one has a target without a hyphen,
as the first has. -/
theorem Graph.default_ids_of_gluedText : ∃ g, Graph.ofText gluedText = .ok g ∧
    Edge.defaultId "a-b" "c" = Edge.defaultId "a" "b-c" ∧
    Edge.defaultId "a-b" "c" ≠ Edge.defaultId "a" "c" ∧
    g.Answers (Edge.defaultId "a-b" "c") ∧ g.Answers (Edge.defaultId "a" "c") := by
  obtain ⟨document, g, hdocument, hgraph, hentries, -⟩ := loads_gluedText
  have hload : Graph.ofText gluedText = .ok g := by
    rw [Graph.ofText, hdocument]
    exact hgraph
  obtain ⟨document', hdocument', -, hlaw⟩ := Graph.default_ids_of_text gluedText g hload
  obtain rfl : document = document' := Except.ok.inj (hdocument.symm.trans hdocument')
  rw [hentries] at hlaw
  obtain ⟨hshifted, -⟩ := hlaw ⟨none, "a-b", none, "c", none⟩ (by decide)
    ⟨none, "a", none, "b-c", some "query"⟩ (by decide) rfl rfl (by decide)
  obtain ⟨-, hhyphens, hfirst, hlast⟩ := hlaw ⟨none, "a-b", none, "c", none⟩ (by decide)
    ⟨none, "a", none, "c", none⟩ (by decide) rfl rfl (by decide)
  refine ⟨g, hload, hshifted.2 (Or.inr ⟨"b", rfl, rfl⟩), fun heq => ?_, hfirst, hlast⟩
  exact absurd (hhyphens heq) (by decide)

end ShapeFlow
