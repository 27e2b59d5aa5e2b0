import ShapeFlow.Load
import ShapeFlow.Proofs.Decoding
import ShapeFlow.Proofs.Lowering

/-!
# Two notations for a node

A node is declared in a sketch or listed in a document. Where both give the same name, the same type
and the same arguments in the same order, they make the same node.

* `Sketch.Declaration.WrittenAs`: a JSON value lists the node that a declaration declares.
* `Sketch.Declaration.WrittenAs.decode`: what is decoded from it is the entry of the declaration.
* `Sketch.Declaration.node_entry_eq_ok_iff`: the entry makes the node that the declaration asks for.
* `Sketch.insertEntries_eq_lowerNodes`: nodes are inserted alike, one after the other.
* `Sketch.notations_agree`: **both notations make the same node**, and the same graph.
-/

namespace ShapeFlow

open Json

namespace Sketch

/-! ## What is written -/

/-- A numeral is read as a double. -/
def Denotes (n : Numeral) (x : Double) : Prop := n.value?.bind Param.Value.number? = some x

/-- A JSON value that says the same as the value of an argument. -/
inductive Value.WrittenAs : Value → Tree → Prop
  | number {x : Double} {n : Numeral} {span : Span} :
      Denotes n x → WrittenAs (.number x span) (.number n)
  | flag (b : Bool) (span : Span) : WrittenAs (.flag b span) (.bool b)
  | text (s : String) (span : Span) : WrittenAs (.text s span) (.text (some s))
  | numbers {xs : List Double} {ns : List Numeral} {span : Span} :
      List.Forall₂ Denotes ns xs → WrittenAs (.numbers xs span) (.array (ns.map .number) none)

/-- A field with the key and the value of an argument. -/
def Argument.WrittenAs (arg : Argument) (field : Option String × Tree) : Prop :=
  field.1 = some arg.key.name ∧ arg.value.WrittenAs field.2

namespace Declaration

/-- The name and the value of every argument in order. -/
def pairs (d : Declaration) : List (String × Param.Value) :=
  d.arguments.map (fun arg => (arg.key.name, arg.value.param))

/-- The node as a document lists it, its type still a name. -/
def entry (d : Declaration) : NodeEntry := ⟨d.name.name, d.block.name, Table.ofList d.pairs⟩

/-- **A JSON value that lists the same node**: the name as its id, the name of the block as its
type, and a field for every argument, in the same order. -/
def WrittenAs (d : Declaration) (t : Tree) : Prop :=
  ∃ fields, List.Forall₂ Argument.WrittenAs d.arguments fields ∧
    t = .object [(some "id", .text (some d.name.name)), (some "type", .text (some d.block.name)),
      (some "params", .object fields none)] none

end Declaration

/-- The JSON value of the same node. -/
def Declaration.toJson (d : Declaration) : Json :=
  .object [("id", .text d.name.name), ("type", .text d.block.name),
    ("params", .object (d.arguments.map (fun arg => (arg.key.name, arg.value.param.toJson))))]

theorem denotes_ofReal {x : Double} (h : ReadsBack x) : Denotes (Numeral.ofReal x) x := by
  obtain ⟨n, hread, hn⟩ := h.exists_numeral
  rw [Denotes, Numeral.ofReal, hread, hn]
  rfl

theorem Value.writtenAs_tree (v : Value) (h : ∀ x ∈ v.param.toJson.reals, ReadsBack x) :
    v.WrittenAs (tree v.param.toJson) := by
  cases v with
  | number x span => exact .number (denotes_ofReal (h x (List.mem_singleton_self x)))
  | flag b span => exact .flag b span
  | text s span => exact .text s span
  | numbers xs span =>
    have hxs : ∀ x ∈ xs, Denotes (Numeral.ofReal x) x := fun x hx =>
      denotes_ofReal (h x (mem_reals_array (List.mem_map_of_mem hx) (List.mem_singleton_self x)))
    have htree : tree (Value.numbers xs span).param.toJson =
        .array ((xs.map Numeral.ofReal).map Tree.number) none := by
      rw [Value.param, Param.Value.toJson, tree, itemTrees_eq, List.map_map, List.map_map]
      rfl
    rw [htree]
    refine .numbers ?_
    rw [List.forall₂_map_left_iff, List.forall₂_same]
    exact hxs

/-- **Every declaration is written by its own JSON value**, if its numbers are read back. -/
theorem Declaration.writtenAs_tree (d : Declaration) (h : ∀ x ∈ d.toJson.reals, ReadsBack x) :
    d.WrittenAs (tree d.toJson) := by
  refine ⟨d.arguments.map (fun arg => (some arg.key.name, tree arg.value.param.toJson)), ?_, ?_⟩
  · rw [List.forall₂_map_right_iff, List.forall₂_same]
    refine fun arg harg => ⟨rfl, arg.value.writtenAs_tree fun x hx => h x ?_⟩
    have hparams : x ∈ (Json.object
        (d.arguments.map (fun arg => (arg.key.name, arg.value.param.toJson)))).reals :=
      mem_reals_object (List.mem_map_of_mem harg) hx
    exact mem_reals_object
      (List.mem_cons_of_mem _ (List.mem_cons_of_mem _ List.mem_cons_self)) hparams
  · rw [toJson, tree, fieldTrees_eq]
    simp only [List.map_cons, List.map_nil, tree, fieldTrees_eq, List.map_map]
    rfl

/-! ## What is decoded -/

variable {room : Nat}

theorem Denotes.decode {n : Numeral} {x : Double} (h : Denotes n x) (room : Nat) :
    ∃ json, Json.decode room (.number n) = .ok json ∧ Param.Value.number? json = some x := by
  obtain ⟨json, hvalue, hx⟩ := Option.bind_eq_some_iff.1 h
  exact ⟨json, by rw [Json.decode, hvalue], hx⟩

theorem decode_numerals {ns : List Numeral} {xs : List Double} (h : List.Forall₂ Denotes ns xs) :
    ∃ items, (ns.map Tree.number).mapM (Json.decode room) = .ok items ∧
      items.mapM Param.Value.number? = some xs := by
  induction h with
  | nil => exact ⟨[], rfl, rfl⟩
  | cons hfirst _ ih =>
    obtain ⟨json, hjson, hx⟩ := hfirst.decode room
    obtain ⟨items, hitems, hxs⟩ := ih
    refine ⟨json :: items, ?_, ?_⟩
    · rw [List.map_cons, List.mapM_cons, hjson, hitems]
      rfl
    · rw [List.mapM_cons, hx, hxs]
      rfl

/-- **A value is decoded as the parameter that the argument stands for.** -/
theorem Value.WrittenAs.decode {v : Value} {t : Tree} (h : v.WrittenAs t) :
    (Json.decode (room + 1) t).map Param.Value.ofJson = .ok v.param := by
  cases h with
  | number hx =>
    obtain ⟨json, hjson, hx⟩ := hx.decode (room + 1)
    rw [hjson]
    -- of JSON values only integers and reals are numbers
    cases json with
    | integer n =>
      cases hx
      rfl
    | real y =>
      cases hx
      rfl
    | _ => cases hx
  | flag b => rw [Json.decode]; rfl
  | text s => rw [Json.decode]; rfl
  | numbers hxs =>
    obtain ⟨items, hitems, hxs⟩ := decode_numerals hxs
    rw [Json.decode, decodeItems_eq, hitems]
    change Except.ok (Param.Value.ofJson (.array items)) = _
    rw [Param.Value.ofJson, hxs]
    rfl

variable {d : Declaration} {ds : List Declaration} {t : Tree} {ts : List Tree}

theorem decode_params {fields : List (Option String × Tree)}
    (h : List.Forall₂ Argument.WrittenAs d.arguments fields) :
    Params.decode (room + 2) (.object fields none) = .ok d.entry.params := by
  have hfields : Decode.fields
      (fun room t => (Json.decode room t).map Param.Value.ofJson) (room + 2)
        (.object fields none) = .ok d.pairs := by
    have hpairs := mapM_eq_ok_of_forall₂ h fun arg field hwritten =>
      (@field_eq_ok_iff _ (fun t => (Json.decode (room + 1) t).map Param.Value.ofJson) field
        (arg.key.name, arg.value.param)).2 ⟨hwritten.1, hwritten.2.decode⟩
    rw [Decode.fields, hpairs]
    rfl
  rw [Params.decode, hfields]
  rfl

/-- **The entry of a declaration** is what is decoded. -/
theorem Declaration.WrittenAs.decode (h : d.WrittenAs t) :
    NodeEntry.decode (room + 3) t = .ok d.entry := by
  obtain ⟨fields, hfields, rfl⟩ := h
  have hdraft : Decode.record ["id", "type", "params"] NodeEntry.take {} (room + 3)
      (.object [(some "id", .text (some d.name.name)), (some "type", .text (some d.block.name)),
        (some "params", .object fields none)] none) =
      .ok ⟨some d.name.name, some d.block.name, some d.entry.params⟩ := by
    simp [Decode.record, Decode.recordFields, Decode.name, NodeEntry.take,
      decode_params hfields, Decode.text, Decode.close]
  rw [NodeEntry.decode, hdraft]
  rfl

/-! ## What is made -/

variable {node : Node}

namespace Declaration

theorem get?_entry (key : String) : d.entry.params.get? key = d.last? key := by
  rw [entry, Table.get?_ofList, pairs, ← List.map_reverse, List.find?_map, Option.map_map]
  rfl

/-- **The entry makes the node that its declaration asks for**, and no other. What the type implies
is set behind the arguments, but only where none of them sets it. -/
theorem node_entry_eq_ok_iff : d.entry.node = .ok node ↔ d.Introduces node := by
  obtain ⟨block, params⟩ := node
  -- both accounts of the parameters agree under every key
  have hparams : ∀ made : Params, (∀ key, made.get? key = (d.last? key).or (d.implied? key)) →
      (made = params ↔ ∀ key, params.get? key = (d.last? key).or (d.implied? key)) := by
    intro made hmade
    constructor
    · rintro rfl
      exact hmade
    · exact fun h => Table.ext_get? fun key => (hmade key).trans (h key).symm
  unfold NodeEntry.node Introduces
  have htype : d.entry.type = d.block.name := rfl
  rw [htype]
  cases Block.ofName? d.block.name with
  | none => simp
  | some known =>
    dsimp only
    rw [Except.ok.injEq, Node.mk.injEq, Option.some.injEq]
    refine and_congr_right fun _ => hparams _ fun key => ?_
    unfold implied?
    cases Block.impliedActivation? d.block.name with
    | none => simp [get?_entry]
    | some function =>
      dsimp only
      rw [Table.get?_insertNew, get?_entry]
      rfl

end Declaration

/-- **Nodes are inserted alike, one after the other**, where no name is used twice. -/
theorem insertEntries_eq_lowerNodes (declared : List String) (g : Graph)
    (hknown : ∀ d ∈ ds, (Block.ofName? d.block.name).isSome) (hdistinct : (names ds).Nodup)
    (hnew : ∀ name ∈ names ds, name ∉ declared) :
    ∃ g', lowerNodes declared g ds = (g', []) ∧
      g.insertEntries (ds.map Declaration.entry) = .ok g' := by
  induction ds generalizing declared g with
  | nil => exact ⟨g, rfl, rfl⟩
  | cons d ds ih =>
    obtain ⟨hblock, hknown⟩ := List.forall_mem_cons.1 hknown
    obtain ⟨hname, hdistinct⟩ := List.nodup_cons.1 hdistinct
    obtain ⟨hfirst, hnew⟩ := List.forall_mem_cons.1 hnew
    obtain ⟨node, hnode⟩ := d.exists_introduces hblock
    have hnext : ∀ name ∈ names ds, name ∉ d.name.name :: declared := by
      intro name hmem
      rw [List.mem_cons, not_or]
      refine ⟨?_, hnew name hmem⟩
      rintro rfl
      exact hname hmem
    obtain ⟨g', hlower, hinsert⟩ :=
      ih (d.name.name :: declared) (g.insert d.name.name node) hknown hdistinct hnext
    refine ⟨g', ?_, ?_⟩
    · rw [lowerNodes_introduced hfirst hnode, hlower]
    · rw [List.map_cons, Graph.insertEntries, Declaration.node_entry_eq_ok_iff.2 hnode, ok_bind]
      exact hinsert

/-- The document of some nodes without edges. -/
def nodesTree (ts : List Tree) : Tree := .object [(some "nodes", .array ts none)] none

/-- The document of the nodes of declarations. -/
def nodesJson (ds : List Declaration) : Json :=
  .object [("nodes", .array (ds.map Declaration.toJson))]

theorem tree_nodesJson (ds : List Declaration) :
    tree (nodesJson ds) = nodesTree (ds.map (fun d => tree d.toJson)) := by
  simp only [nodesJson, tree, fieldTrees_eq, itemTrees_eq, List.map_cons, List.map_nil,
    List.map_map]
  rfl

/-- **A document of the same nodes** is decoded entry by entry. -/
theorem decode_nodesTree (h : List.Forall₂ Declaration.WrittenAs ds ts) :
    Document.decode (room + 5) (nodesTree ts) = .ok ⟨ds.map Declaration.entry, []⟩ := by
  have hentries : Decode.elements NodeEntry.decode (room + 4) (.array ts none) =
      .ok (ds.map Declaration.entry) := by
    rw [Decode.elements, mapM_eq_ok_of_forall₂ h fun _ _ hwritten => hwritten.decode]
    rfl
  have hdraft : Decode.record ["version", "nodes", "edges"] Document.take {} (room + 5)
      (nodesTree ts) = .ok ⟨some (ds.map Declaration.entry), none⟩ := by
    simp [nodesTree, Decode.record, Decode.recordFields, Decode.name, Document.take, hentries,
      Decode.close]
  rw [Document.decode, hdraft]
  rfl

/-- **A sketch of declarations has the graph of a document of the same nodes.** -/
theorem lower_eq_ofText (h : List.Forall₂ Declaration.WrittenAs ds ts)
    (hknown : ∀ d ∈ ds, (Block.ofName? d.block.name).isSome) (hdistinct : (names ds).Nodup) :
    ∃ g, lower (ds.map .node) = (g, []) ∧ ∀ text rest,
      Tree.read text = (nodesTree ts, some rest) → (Tree.skipSpace rest).isEmpty →
        Graph.ofText text = .ok g := by
  obtain ⟨g, hlower, hinsert⟩ := insertEntries_eq_lowerNodes [] Graph.empty hknown hdistinct
    fun name _ => List.not_mem_nil
  refine ⟨{ g with edges := [] }, ?_, ?_⟩
  · rw [lower, declarations_map_node, chains_map_node]
    dsimp only
    rw [hlower]
    rfl
  · intro text rest hread hrest
    have hdocument : Decode.ofText Document.decode text = .ok ⟨ds.map Declaration.entry, []⟩ := by
      have hroom : Decode.maxOpen = 122 + 5 := rfl
      rw [Decode.ofText, hread, hroom]
      dsimp only
      rw [decode_nodesTree h, ok_bind, if_pos hrest]
      rfl
    rw [Graph.ofText, hdocument]
    change Document.graph _ = _
    rw [Document.graph, hinsert]
    rfl

/-- **Both notations make the same node.** For a block name that is known, a declaration and a JSON
value that lists the same name, type and arguments give the same node; under `activation` it has the
last argument, or else what the block name implies. Hence declarations of distinct names make the
graph that any text with the same nodes has. -/
theorem notations_agree :
    (∀ (d : Declaration) (t : Tree), d.WrittenAs t → (Block.ofName? d.block.name).isSome →
      ∃ node entry, d.node = .ok node ∧
        (∀ room, NodeEntry.decode (room + 3) t = .ok entry) ∧
        entry.id = d.name.name ∧ entry.node = .ok node ∧
        node.params.get? "activation" = (d.last? "activation").or
          ((Block.impliedActivation? d.block.name).map Param.Value.text)) ∧
    ∀ (ds : List Declaration) (ts : List Tree), List.Forall₂ Declaration.WrittenAs ds ts →
      (∀ d ∈ ds, (Block.ofName? d.block.name).isSome) → (names ds).Nodup →
        ∃ g, lower (ds.map .node) = (g, []) ∧ ∀ text rest,
          Tree.read text = (nodesTree ts, some rest) → (Tree.skipSpace rest).isEmpty →
            Graph.ofText text = .ok g := by
  refine ⟨fun d t hwritten hblock => ?_, fun ds ts => lower_eq_ofText⟩
  obtain ⟨node, hnode⟩ := d.exists_introduces hblock
  refine ⟨node, d.entry, Declaration.node_eq_ok_iff.2 hnode, fun _ => hwritten.decode, rfl,
    Declaration.node_entry_eq_ok_iff.2 hnode, ?_⟩
  rw [hnode.2, Declaration.implied?, if_pos rfl]

/-- A type with a case of its own, an argument that is given twice, and an activation function
beside the one that the type implies. -/
def reluDeclaration : Declaration :=
  ⟨⟨"r", default⟩, ⟨"ReLU", default⟩, [⟨⟨"p", default⟩, .flag true default⟩,
      ⟨⟨"activation", default⟩, .text "tanh" default⟩,
      ⟨⟨"p", default⟩, .numbers [Double.ofInt 2, Double.ofInt (-3)] default⟩], default⟩

/-- A type that implies its activation function, with blanks around it. -/
def geluDeclaration : Declaration := ⟨⟨"g", default⟩, ⟨" gelu ", default⟩, [], default⟩

theorem notations_agree_on_aliases :
    (nodesJson [reluDeclaration, geluDeclaration]).compact =
      "\x7b\"nodes\":[\x7b\"id\":\"r\",\"type\":\"ReLU\",\"params\":\x7b\"p\":true," ++
      "\"activation\":\"tanh\",\"p\":[2.0,-3.0]\x7d\x7d,\x7b\"id\":\"g\",\"type\":\" gelu \"," ++
      "\"params\":\x7b\x7d\x7d]\x7d" ∧
    (∃ node, reluDeclaration.node = .ok node ∧
      node.params.get? "activation" = some (.text "tanh")) ∧
    (∃ node, geluDeclaration.node = .ok node ∧
      node.params.get? "activation" = some (.text "gelu")) ∧
    ∃ g, lower ([reluDeclaration, geluDeclaration].map .node) = (g, []) ∧
      Graph.ofText (nodesJson [reluDeclaration, geluDeclaration]).compact = .ok g := by
  have hreads : ∀ x ∈ (nodesJson [reluDeclaration, geluDeclaration]).reals, ReadsBack x := by
    decide +kernel
  have hrelu : reluDeclaration.WrittenAs (tree reluDeclaration.toJson) :=
    reluDeclaration.writtenAs_tree (by decide +kernel)
  have hgelu : geluDeclaration.WrittenAs (tree geluDeclaration.toJson) :=
    geluDeclaration.writtenAs_tree (by decide +kernel)
  have hread := read_compact hreads
  rw [tree_nodesJson] at hread
  obtain ⟨hone, hall⟩ := notations_agree
  refine ⟨by decide +kernel, ?_, ?_, ?_⟩
  · obtain ⟨node, -, hnode, -, -, -, hactivation⟩ := hone _ _ hrelu (by decide +kernel)
    have hlast : reluDeclaration.last? "activation" = some (.text "tanh") := by
      simp [Declaration.last?, reluDeclaration, Value.param]
    exact ⟨node, hnode, hactivation.trans (by rw [hlast]; rfl)⟩
  · obtain ⟨node, -, hnode, -, -, -, hactivation⟩ := hone _ _ hgelu (by decide +kernel)
    have himplied : Block.impliedActivation? geluDeclaration.block.name = some "gelu" := by
      decide +kernel
    exact ⟨node, hnode, hactivation.trans (by rw [himplied]; rfl)⟩
  · obtain ⟨g, hlower, htext⟩ := hall _ _ (.cons hrelu (.cons hgelu .nil)) (by decide +kernel)
      (by decide)
    exact ⟨g, hlower, htext _ _ hread rfl⟩

end Sketch

end ShapeFlow
