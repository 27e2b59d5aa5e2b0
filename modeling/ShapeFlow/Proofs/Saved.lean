import ShapeFlow.Load
import ShapeFlow.Proofs.Decoding

/-!
# Saved graphs

* `Graph.numbers`: the numbers among the parameters of a graph.
* `Graph.Savable`: every parameter is one that a document can hold.
* `Graph.ofText_toText`: **a savable graph is read back from its own document.**
-/

namespace ShapeFlow

open Json

/-! ### Stored parameters -/

namespace Param.Value

/-- A parameter that a document can hold where so many levels are left: its JSON value can be
decoded and stands for the parameter again. -/
structure Stored (room : Nat) (value : Value) : Prop where
  fits : Fits room value.toJson
  again : ofJson value.toJson = value

variable {room : Nat}

theorem stored_flag (b : Bool) : Stored room (flag b) := ⟨.bool b, rfl⟩

theorem stored_text (s : String) : Stored room (text s) := ⟨.text s, rfl⟩

theorem stored_number {x : Double} (h : x.isFinite) : Stored room (number x) := ⟨.number h, rfl⟩

theorem mapM_number?_real (xs : List Double) : (xs.map Json.real).mapM number? = some xs := by
  induction xs with
  | nil => rfl
  | cons x xs ih => rw [List.map_cons, List.mapM_cons, ih]; rfl

/-- A list of finite numbers needs room for one container. -/
theorem stored_numbers {xs : List Double} (h : ∀ x ∈ xs, x.isFinite) :
    Stored (room + 1) (numbers xs) := by
  refine ⟨.array fun item hitem => ?_, ?_⟩
  · obtain ⟨x, hx, rfl⟩ := List.mem_map.1 hitem
    exact .number (h x hx)
  · rw [toJson, ofJson, mapM_number?_real]

/-- A number of JSON is finite as a double. -/
theorem isFinite_of_number? {json : Json} {x : Double} (hfits : Fits room json)
    (h : number? json = some x) : x.isFinite := by
  cases hfits with
  | number hv =>
    cases json with
    | integer n =>
      cases h
      have hsize : UInt64.size = 2 ^ 64 := rfl
      exact Double.isFinite_ofInt (by have := hv.1; have := hv.2; omega)
    | real y =>
      cases h
      exact hv
    | _ => cases hv
  | _ => cases h

theorem isFinite_of_mapM_number? {items : List Json} {xs : List Double}
    (hitems : ∀ item ∈ items, Fits room item) (h : items.mapM number? = some xs) :
    ∀ x ∈ xs, x.isFinite := by
  induction items generalizing xs with
  | nil =>
    cases h
    exact List.forall_mem_nil _
  | cons item items ih =>
    obtain ⟨hitem, hitems⟩ := List.forall_mem_cons.1 hitems
    rw [List.mapM_cons] at h
    obtain ⟨x, hx, h⟩ := Option.bind_eq_some_iff.1 h
    obtain ⟨rest, hrest, h⟩ := Option.bind_eq_some_iff.1 h
    cases h
    exact List.forall_mem_cons.2 ⟨isFinite_of_number? hitem hx, ih hitems hrest⟩

/-- **The parameter of a decoded value** can be stored. -/
theorem stored_ofJson {json : Json} (h : Fits room json) : Stored room (ofJson json) := by
  cases json with
  | null => exact ⟨.null, rfl⟩
  | bool b => exact stored_flag b
  | integer n => exact stored_number (isFinite_of_number? h rfl)
  | real x => exact stored_number (isFinite_of_number? h rfl)
  | text s => exact stored_text s
  | object fields => exact ⟨h, rfl⟩
  | array items =>
    -- numbers alone make a list of numbers; with anything else among them the JSON is kept
    rw [ofJson]
    split
    · next xs hxs =>
      cases h with
      | array hitems => exact stored_numbers (isFinite_of_mapM_number? hitems hxs)
      | number hv => cases hv
    · next hnone =>
      refine ⟨h, ?_⟩
      rw [toJson, ofJson, hnone]

end Param.Value

/-- The containers that are open around a parameter are the document, the list of nodes, the node
and its parameters. -/
def Document.paramRoom : Nat := Decode.maxOpen - 4

/-- Every parameter of a node has a property. -/
def Params.All (P : Param.Value → Prop) (params : Params) : Prop :=
  ∀ entry ∈ params.entries, P entry.2

/-- Every parameter of a graph has a property. -/
def Graph.All (P : Param.Value → Prop) (g : Graph) : Prop :=
  ∀ entry ∈ g.nodes.entries, entry.2.params.All P

/-- Every parameter of a node is one that a document can hold. -/
abbrev Params.Savable (params : Params) : Prop := params.All (·.Stored Document.paramRoom)

/-- Every parameter of a graph is one that a document can hold. -/
abbrev Graph.Savable (g : Graph) : Prop := g.All (·.Stored Document.paramRoom)

/-- The numbers among the parameters of a node, those inside of lists and objects included. -/
def Params.numbers (params : Params) : List Double :=
  params.entries.flatMap (fun entry => entry.2.toJson.reals)

/-- The numbers among the parameters of a graph. -/
def Graph.numbers (g : Graph) : List Double :=
  g.nodes.entries.flatMap (fun entry => entry.2.params.numbers)

/-- Parameters that can be saved hold finite numbers only. -/
theorem Graph.Savable.isFinite {g : Graph} (h : g.Savable) {x : Double} (hx : x ∈ g.numbers) :
    x.isFinite := by
  obtain ⟨entry, hentry, hx⟩ := List.mem_flatMap.1 hx
  obtain ⟨param, hparam, hx⟩ := List.mem_flatMap.1 hx
  exact (h entry hentry param hparam).fits.isFinite_of_mem hx

/-! ### Reading back what was saved -/

/-- Parameters are read back name by name, if every number among them is. -/
theorem Params.decode_tree {params : Params} (hsavable : params.Savable)
    (hnumbers : ∀ x ∈ params.numbers, ReadsBack x) :
    Params.decode (Document.paramRoom + 1) (tree params.toJson) = .ok params := by
  have hvalue : ∀ entry ∈ params.entries, (Json.decode Document.paramRoom
      (tree entry.2.toJson)).map Param.Value.ofJson = .ok entry.2 := by
    intro entry hentry
    have hstored := hsavable entry hentry
    have hreals : ∀ x ∈ entry.2.toJson.reals, ReadsBack x := fun x hx =>
      hnumbers x (List.mem_flatMap.2 ⟨entry, hentry, hx⟩)
    rw [Json.decode_tree hstored.fits hreals]
    exact congrArg Except.ok hstored.again
  rw [Params.decode, toJson, fields_tree hvalue, ok_bind, Table.ofList_entries]
  rfl

/-- The entry of a node in a document. -/
def Node.entry (id : NodeId) (node : Node) : NodeEntry := ⟨id, node.block.name, node.params⟩

/-- The entry of an edge in a document, with all of its parts. -/
def Edge.entry (e : Edge) : EdgeEntry :=
  ⟨some e.id, e.source, some e.sourceHandle, e.target, some e.targetHandle⟩

/-- A node is read back with its name and its block, as long as its parameters are. -/
theorem NodeEntry.decode_tree {id : NodeId} {node : Node} (hsavable : node.params.Savable)
    (hnumbers : ∀ x ∈ node.params.numbers, ReadsBack x) :
    NodeEntry.decode (Document.paramRoom + 2) (tree (node.toJson id)) = .ok (node.entry id) := by
  have hparams := Params.decode_tree hsavable hnumbers
  have hdraft : Decode.record ["id", "type", "params"] take {} (Document.paramRoom + 2)
      (tree (node.toJson id)) = .ok ⟨some id, some node.block.name, some node.params⟩ := by
    simp [Node.toJson, tree, Decode.record, Decode.recordFields, Decode.name, take, hparams,
      Decode.text, Decode.close]
  rw [decode, hdraft]
  rfl

theorem EdgeEntry.decode_tree (e : Edge) (room : Nat) :
    EdgeEntry.decode (room + 1) (tree e.toJson) = .ok e.entry := by
  rfl

theorem Block.ofName?_name (block : Block) : Block.ofName? block.name = some block := by
  cases block <;> rfl

/-- A saved name is the name of the block itself, which implies no activation. -/
theorem Block.impliedActivation?_name (block : Block) :
    Block.impliedActivation? block.name = none := by
  cases block <;> rfl

/-- The entry of a saved node stands for this node. -/
theorem Node.node_entry (id : NodeId) (node : Node) : (node.entry id).node = .ok node := by
  rw [NodeEntry.node, entry, Block.ofName?_name, Block.impliedActivation?_name]

theorem Edge.edge_entry (e : Edge) : e.entry.edge = e := rfl

/-! ### Documents -/

variable {g : Graph}

/-- The document that is written for a graph. -/
def Graph.document (g : Graph) : Document where
  nodes := g.nodes.entries.map (fun entry => entry.2.entry entry.1)
  edges := g.edges.map Edge.entry

theorem Graph.decode_tree (hsavable : g.Savable) (hnumbers : ∀ x ∈ g.numbers, ReadsBack x) :
    Document.decode Decode.maxOpen (tree g.toJson) = .ok g.document := by
  have hnodes : Decode.elements NodeEntry.decode (Document.paramRoom + 3)
      (tree (.array (g.nodes.entries.map (fun entry => entry.2.toJson entry.1)))) =
        .ok g.document.nodes :=
    elements_tree fun entry hentry => NodeEntry.decode_tree (hsavable entry hentry) fun x hx =>
      hnumbers x (List.mem_flatMap.2 ⟨entry, hentry, hx⟩)
  have hedges : Decode.elements EdgeEntry.decode (Document.paramRoom + 3)
      (tree (.array (g.edges.map Edge.toJson))) = .ok g.document.edges :=
    elements_tree fun edge _ => EdgeEntry.decode_tree edge _
  have hdraft : Decode.record ["version", "nodes", "edges"] Document.take {}
      (Document.paramRoom + 4) (tree g.toJson) =
        .ok ⟨some g.document.nodes, some g.document.edges⟩ := by
    have htree : tree g.toJson = .object [(some "version", .text (some Document.version)),
        (some "nodes", tree (.array (g.nodes.entries.map (fun entry => entry.2.toJson entry.1)))),
        (some "edges", tree (.array (g.edges.map Edge.toJson)))] none := rfl
    rw [htree]
    -- the trees of the two lists are opaque from here on, so only the record is unfolded
    generalize tree (.array (g.nodes.entries.map _)) = nodes at hnodes ⊢
    generalize tree (.array (g.edges.map _)) = edges at hedges ⊢
    simp [Decode.record, Decode.recordFields, Decode.name, Document.take, Json.decode, hnodes,
      hedges, Decode.close]
  have hroom : Decode.maxOpen = Document.paramRoom + 4 := rfl
  rw [Document.decode, hroom, hdraft]
  rfl

/-- Nodes of distinct ids are inserted one by one. -/
theorem Graph.insertEntries_entries (entries : List (NodeId × Node)) (g : Graph)
    (hnew : ∀ entry ∈ entries, g.nodes.get? entry.1 = none)
    (hdistinct : entries.Pairwise (fun a b => a.1 ≠ b.1)) :
    g.insertEntries (entries.map (fun entry => entry.2.entry entry.1)) =
      .ok { g with nodes := entries.foldl (fun t entry => t.insert entry.1 entry.2) g.nodes } := by
  induction entries generalizing g with
  | nil => rfl
  | cons entry rest ih =>
    obtain ⟨hfirst, hrest⟩ := List.forall_mem_cons.1 hnew
    obtain ⟨hother, hdistinct⟩ := List.pairwise_cons.1 hdistinct
    have hinsert : g.insert entry.1 entry.2 = { g with nodes := g.nodes.insert entry.1 entry.2 } := by
      rw [Graph.insert, Table.contains, hfirst]
      rfl
    rw [List.map_cons, insertEntries, Node.node_entry, ok_bind]
    have hid : (entry.2.entry entry.1).id = entry.1 := rfl
    rw [hid, hinsert, ih _ _ hdistinct]
    · rfl
    · intro other hmem
      rw [Table.get?_insert, if_neg (hother other hmem).symm]
      exact hrest other hmem

/-- A document that was saved repeats no node, so nothing is dropped when it is taken as a graph. -/
theorem Graph.graph_document (g : Graph) : g.document.graph = .ok { g with duplicates := [] } := by
  have hdistinct : g.nodes.entries.Pairwise (fun a b => a.1 ≠ b.1) :=
    g.nodes.ascending.imp fun h => String.ne_of_lt h
  have hnodes := Graph.insertEntries_entries g.nodes.entries Graph.empty (fun _ _ => rfl) hdistinct
  have htable : g.nodes.entries.foldl (fun t entry => t.insert entry.1 entry.2) Graph.empty.nodes =
      g.nodes := Table.ofList_entries g.nodes
  have hedges : g.document.edges.map EdgeEntry.edge = g.edges := by
    rw [document, List.map_map]
    exact (List.map_congr_left fun e _ => e.edge_entry).trans (List.map_id g.edges)
  rw [htable] at hnodes
  rw [Document.graph, document, hnodes, ok_bind]
  exact congrArg (fun edges => Except.ok (⟨g.nodes, edges, []⟩ : Graph)) hedges

theorem Params.reals_toJson (params : Params) : params.toJson.reals = params.numbers := by
  rw [toJson, reals_object, List.flatMap_map, numbers]

theorem Node.reals_toJson (id : NodeId) (node : Node) :
    (node.toJson id).reals = node.params.numbers := by
  rw [toJson, reals_object, ← Params.reals_toJson]
  exact List.append_nil _

theorem Edge.reals_toJson (e : Edge) : e.toJson.reals = [] := rfl

/-- **The doubles in the document of a graph** are the numbers among its parameters. -/
theorem Graph.reals_toJson (g : Graph) : g.toJson.reals = g.numbers := by
  have hnodes : (Json.array (g.nodes.entries.map (fun entry => entry.2.toJson entry.1))).reals =
      g.numbers := by
    simp only [reals_array, List.flatMap_map, Node.reals_toJson, numbers]
  have hedges : (Json.array (g.edges.map Edge.toJson)).reals = [] := by
    rw [reals_array, List.flatMap_eq_nil_iff, List.forall_mem_map]
    exact fun e _ => e.reals_toJson
  rw [toJson, reals_object]
  simp only [List.flatMap_cons, List.flatMap_nil]
  rw [hnodes, hedges]
  exact List.append_nil _

/-- **A savable graph is read back from its own document**, without the ids that were used again. -/
theorem Graph.ofText_toText (hsavable : g.Savable) (hnumbers : ∀ x ∈ g.numbers, ReadsBack x) :
    Graph.ofText g.toText = .ok { g with duplicates := [] } := by
  have hread : Tree.read g.toText = (tree g.toJson, some []) :=
    read_pretty fun x hx => hnumbers x (g.reals_toJson ▸ hx)
  have hdocument : Decode.ofText Document.decode g.toText = .ok g.document := by
    rw [Decode.ofText, hread]
    dsimp only
    rw [Graph.decode_tree hsavable hnumbers]
    rfl
  rw [Graph.ofText, hdocument]
  exact g.graph_document

end ShapeFlow
