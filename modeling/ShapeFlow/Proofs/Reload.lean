import ShapeFlow.Proofs.Saved

/-!
# Loaded graphs can be saved and loaded again

* `Json.record_invariant`: what every field of a record preserves holds of the record.
* `Graph.savable_of_ofText`, `Sketch.savable_of_load`: every graph that was loaded can be saved.
* `Graph.reload`: **a loaded graph is read back from its own document.**
-/

namespace ShapeFlow

open Json

/-! ### Records -/

namespace Json

variable {δ : Type} {P : δ → Prop} {known : List String} {take : Decode.Taker δ} {room : Nat}

theorem recordFields_invariant {fields : List (Option String × Tree)} {seen : List String}
    {start draft : δ} (h : Decode.recordFields known take room seen start fields = .ok draft)
    (hstart : P start) (htake : ∀ d key value d', P d → take d key room value = .ok d' → P d') :
    P draft := by
  induction fields generalizing seen start with
  | nil =>
    cases h
    exact hstart
  | cons field rest ih =>
    rw [Decode.recordFields] at h
    obtain ⟨key, -, h⟩ := bind_eq_ok_iff.1 h
    split at h
    · obtain ⟨-, -, h⟩ := bind_eq_ok_iff.1 h
      exact ih h hstart
    split at h
    · cases h
    · obtain ⟨next, hnext, h⟩ := bind_eq_ok_iff.1 h
      exact ih h (htake start key field.2 next hstart hnext)

theorem recordItems_invariant {items : List Tree} {start draft : δ}
    (h : Decode.recordItems take room known start items = .ok draft)
    (hstart : P start) (htake : ∀ d key value d', P d → take d key room value = .ok d' → P d') :
    P draft := by
  induction items generalizing known start with
  | nil =>
    rw [Decode.recordItems] at h
    cases h
    exact hstart
  | cons item rest ih =>
    cases known with
    | nil => cases h
    | cons key known =>
      rw [Decode.recordItems] at h
      obtain ⟨next, hnext, h⟩ := bind_eq_ok_iff.1 h
      exact ih h (htake start key item next hstart hnext)

/-- **What every field of a record preserves** holds of the record. -/
theorem record_invariant {t : Tree} {start draft : δ}
    (h : Decode.record known take start (room + 1) t = .ok draft) (hstart : P start)
    (htake : ∀ d key value d', P d → take d key room value = .ok d' → P d') : P draft := by
  cases t with
  | object fields stop =>
    rw [Decode.record] at h
    obtain ⟨next, hnext, h⟩ := bind_eq_ok_iff.1 h
    obtain ⟨-, -, h⟩ := bind_eq_ok_iff.1 h
    cases h
    exact recordFields_invariant hnext hstart htake
  | array items stop =>
    rw [Decode.record] at h
    obtain ⟨next, hnext, h⟩ := bind_eq_ok_iff.1 h
    obtain ⟨-, -, h⟩ := bind_eq_ok_iff.1 h
    cases h
    exact recordItems_invariant hnext hstart htake
  | _ => cases h


variable {α : Type}

/-- The items of a decoded list are decoded. -/
theorem exists_of_mem_elements {item : Decoder α} {t : Tree} {xs : List α} {x : α}
    (h : Decode.elements item (room + 1) t = .ok xs) (hx : x ∈ xs) : ∃ t', item room t' = .ok x := by
  obtain ⟨inner, items, hroom, -, hitems⟩ := elements_eq_ok_iff.1 h
  obtain rfl := Nat.succ.inj hroom
  obtain ⟨t', -, ht'⟩ := exists_of_mem_forall₂ hitems hx
  exact ⟨t', ht'⟩

/-- The values of a decoded object are decoded. -/
theorem exists_of_mem_fields {value : Decoder α} {t : Tree} {entries : List (String × α)}
    {entry : String × α} (h : Decode.fields value (room + 1) t = .ok entries)
    (hentry : entry ∈ entries) : ∃ t', value room t' = .ok entry.2 := by
  cases t with
  | object fields stop =>
    rw [Decode.fields] at h
    obtain ⟨pairs, hpairs, h⟩ := bind_eq_ok_iff.1 h
    obtain ⟨-, -, h⟩ := bind_eq_ok_iff.1 h
    cases h
    obtain ⟨field, -, hfield⟩ := exists_of_mem_forall₂ (mapM_eq_ok_iff.1 hpairs) hentry
    exact ⟨field.2, (field_eq_ok_iff.1 hfield).2⟩
  | _ => cases h

/-- A text is decoded from a tree. -/
theorem exists_of_ofText {decode : Decoder α} {text : String} {a : α}
    (h : Decode.ofText decode text = .ok a) : ∃ t, decode Decode.maxOpen t = .ok a :=
  ⟨(Tree.read text).1, (ofText_eq_ok_iff.1 h).1⟩

end Json

/-! ### Documents -/

theorem Params.savable_of_decode {t : Tree} {params : Params}
    (h : Params.decode (Document.paramRoom + 1) t = .ok params) : params.Savable := by
  rw [Params.decode] at h
  obtain ⟨entries, hentries, h⟩ := bind_eq_ok_iff.1 h
  cases h
  intro entry hentry
  obtain ⟨t', ht'⟩ := exists_of_mem_fields hentries (Table.mem_ofList hentry)
  obtain ⟨json, hjson, hvalue⟩ := map_eq_ok_iff.1 ht'
  rw [← hvalue]
  exact Param.Value.stored_ofJson (fits_of_decode hjson)

theorem Params.all_empty {P : Param.Value → Prop} : Params.All P Table.empty :=
  List.forall_mem_nil _

theorem Params.All.insert {P : Param.Value → Prop} {params : Params} (h : params.All P)
    (key : String) {value : Param.Value} (hvalue : P value) :
    Params.All P (params.insert key value) :=
  Table.forall_insert h hvalue

theorem NodeEntry.savable_of_decode {t : Tree} {entry : NodeEntry}
    (h : NodeEntry.decode (Document.paramRoom + 2) t = .ok entry) : entry.params.Savable := by
  rw [NodeEntry.decode] at h
  obtain ⟨draft, hdraft, h⟩ := bind_eq_ok_iff.1 h
  obtain ⟨id, -, h⟩ := bind_eq_ok_iff.1 h
  obtain ⟨type, -, h⟩ := bind_eq_ok_iff.1 h
  cases h
  -- the other fields leave the parameters of the draft as they are
  have hparams : ∀ params ∈ draft.params, params.Savable := by
    refine record_invariant (P := fun d : Draft => ∀ params ∈ d.params, params.Savable) hdraft
      (by simp) ?_
    intro d key value d' hd htake
    unfold take at htake
    split at htake
    · obtain ⟨s, -, htake⟩ := bind_eq_ok_iff.1 htake
      cases htake
      exact hd
    · obtain ⟨s, -, htake⟩ := bind_eq_ok_iff.1 htake
      cases htake
      exact hd
    · obtain ⟨params, hparams, htake⟩ := bind_eq_ok_iff.1 htake
      cases htake
      rintro params' ⟨⟩
      exact Params.savable_of_decode hparams
  cases hnone : draft.params with
  | none => exact Params.all_empty
  | some params => exact hparams params hnone

theorem Document.savable_of_decode {t : Tree} {document : Document}
    (h : Document.decode Decode.maxOpen t = .ok document) :
    ∀ entry ∈ document.nodes, entry.params.Savable := by
  have hroom : Decode.maxOpen = Document.paramRoom + 4 := rfl
  rw [Document.decode, hroom] at h
  obtain ⟨draft, hdraft, h⟩ := bind_eq_ok_iff.1 h
  obtain ⟨nodes, hnodes, h⟩ := bind_eq_ok_iff.1 h
  cases h
  have hentries : ∀ nodes ∈ draft.nodes, ∀ entry ∈ nodes, entry.params.Savable := by
    refine record_invariant
      (P := fun d : Draft => ∀ nodes ∈ d.nodes, ∀ entry ∈ nodes, entry.params.Savable) hdraft
      (by simp) ?_
    intro d key value d' hd htake
    unfold take at htake
    split at htake
    · obtain ⟨version, -, htake⟩ := bind_eq_ok_iff.1 htake
      cases htake
      exact hd
    · obtain ⟨nodes, hnodes, htake⟩ := bind_eq_ok_iff.1 htake
      cases htake
      rintro nodes' ⟨⟩ entry hentry
      obtain ⟨t', ht'⟩ := exists_of_mem_elements hnodes hentry
      exact NodeEntry.savable_of_decode ht'
    · obtain ⟨edges, -, htake⟩ := bind_eq_ok_iff.1 htake
      cases htake
      exact hd
  cases hsome : draft.nodes with
  | none =>
    rw [hsome] at hnodes
    cases hnodes
  | some nodes' =>
    rw [hsome] at hnodes
    cases hnodes
    exact hentries nodes hsome

/-! ### Graphs -/

variable {g g' : Graph}

theorem Graph.all_empty {P : Param.Value → Prop} : Graph.empty.All P := List.forall_mem_nil _

theorem Graph.All.insert {P : Param.Value → Prop} (h : g.All P) (id : NodeId) {node : Node}
    (hnode : node.params.All P) : (g.insert id node).All P := by
  unfold Graph.insert
  split
  · exact h
  · exact Table.forall_insert h hnode

theorem NodeEntry.savable_node {entry : NodeEntry} {node : Node} (h : entry.params.Savable)
    (hnode : entry.node = .ok node) : node.params.Savable := by
  unfold NodeEntry.node at hnode
  split at hnode
  · cases hnode
  · next block _ =>
    cases hnode
    dsimp only
    split
    · next function _ =>
      unfold Table.insertNew
      split
      · exact h
      · exact h.insert "activation" (Param.Value.stored_text function)
    · exact h

theorem Graph.savable_insertEntries {entries : List NodeEntry} (hg : g.Savable)
    (hentries : ∀ entry ∈ entries, entry.params.Savable)
    (h : g.insertEntries entries = .ok g') : g'.Savable := by
  induction entries generalizing g with
  | nil =>
    cases h
    exact hg
  | cons entry rest ih =>
    obtain ⟨hentry, hrest⟩ := List.forall_mem_cons.1 hentries
    rw [insertEntries] at h
    obtain ⟨node, hnode, h⟩ := bind_eq_ok_iff.1 h
    exact ih (hg.insert entry.id (NodeEntry.savable_node hentry hnode)) hrest h

/-- **The graph of a document can be saved.** -/
theorem Graph.savable_of_ofText {text : String} (h : Graph.ofText text = .ok g) : g.Savable := by
  rw [Graph.ofText] at h
  obtain ⟨document, hdocument, h⟩ := bind_eq_ok_iff.1 h
  have hdocument : Decode.ofText Document.decode text = .ok document := by
    cases hread : Decode.ofText Document.decode text with
    | error fault =>
      rw [hread] at hdocument
      cases hdocument
    | ok other =>
      rw [hread] at hdocument
      cases hdocument
      rfl
  obtain ⟨t, ht⟩ := exists_of_ofText hdocument
  obtain ⟨nodes, hnodes, h⟩ := bind_eq_ok_iff.1 h
  cases h
  have hsavable : nodes.Savable :=
    Graph.savable_insertEntries Graph.all_empty (Document.savable_of_decode ht) hnodes
  exact hsavable

/-! ### Sketches -/

namespace Sketch

/-- A parameter that fits some schema. -/
def IsPlain (value : Param.Value) : Prop := ∀ json, value ≠ .other json

/-- A finite parameter of a sketch can be stored. -/
theorem stored_of_isPlain {room : Nat} {value : Param.Value} (hplain : IsPlain value)
    (hfinite : ∀ x ∈ value.toJson.reals, x.isFinite) : value.Stored (room + 1) := by
  cases value with
  | flag b => exact Param.Value.stored_flag b
  | number x => exact Param.Value.stored_number (hfinite x (List.mem_singleton_self x))
  | numbers xs =>
    refine Param.Value.stored_numbers fun x hx => hfinite x ?_
    exact mem_reals_array (List.mem_map_of_mem hx) (List.mem_singleton_self x)
  | text s => exact Param.Value.stored_text s
  | other json => exact absurd rfl (hplain json)

theorem isPlain_param (v : Value) : IsPlain v.param := by
  cases v <;> exact fun _ => Param.Value.noConfusion

theorem isPlain_params (d : Declaration) : d.params.All IsPlain := by
  have hfold (arguments : List Argument) (params : Params) (h : params.All IsPlain) :
      Params.All IsPlain
        (arguments.foldl (fun params arg => params.insert arg.key.name arg.value.param) params) := by
    induction arguments generalizing params with
    | nil => exact h
    | cons arg rest ih => exact ih _ (h.insert arg.key.name (isPlain_param arg.value))
  unfold Declaration.params
  refine hfold _ _ ?_
  split
  · exact Params.all_empty.insert "activation" fun _ => Param.Value.noConfusion
  · exact Params.all_empty

theorem isPlain_lowerNodes (declared : List String) (declarations : List Declaration)
    (h : g.All IsPlain) : (lowerNodes declared g declarations).1.All IsPlain := by
  induction declarations generalizing declared g with
  | nil => exact h
  | cons d rest ih =>
    unfold lowerNodes
    split
    · exact ih declared h
    · split
      · next node hnode =>
        refine ih _ (h.insert d.name.name ?_)
        unfold Declaration.node at hnode
        split at hnode
        · cases hnode
          exact isPlain_params d
        · cases hnode
      · exact ih _ h

/-- **The graph of a sketch can be saved** if its numbers are finite. -/
theorem savable_of_load {source : String} (h : load source = .ok g)
    (hfinite : ∀ x ∈ g.numbers, x.isFinite) : g.Savable := by
  -- an argument is never a JSON value outside of the schemas, so only its numbers matter
  have hplain : g.All IsPlain := by
    unfold load at h
    dsimp only at h
    split at h
    · cases h
    · next sketch _ =>
      split at h
      · cases h
        exact isPlain_lowerNodes [] (declarations sketch.statements) Graph.all_empty
      · cases h
  intro entry hentry param hparam
  refine stored_of_isPlain (hplain entry hentry param hparam) fun x hx => hfinite x ?_
  exact List.mem_flatMap.2 ⟨entry, hentry, List.mem_flatMap.2 ⟨param, hparam, hx⟩⟩

end Sketch

/-- **A loaded graph is read back from its own document**, without the ids that were used again. A
graph is loaded from a document, or from a sketch whose numbers are finite; and of the numbers that
occur in it the finite ones have to be read back from their own texts. -/
theorem Graph.reload {text : String}
    (h : Graph.ofText text = .ok g ∨
      (Sketch.load text = .ok g ∧ ∀ x ∈ g.numbers, x.isFinite))
    (hprint : ∀ x ∈ g.numbers, x.isFinite → ReadsBack x) :
    Graph.ofText g.toText = .ok { g with duplicates := [] } := by
  have hsavable : g.Savable := by
    rcases h with h | ⟨h, hfinite⟩
    · exact Graph.savable_of_ofText h
    · exact Sketch.savable_of_load h hfinite
  exact Graph.ofText_toText hsavable fun x hx => hprint x hx (hsavable.isFinite hx)

/-- A document with a type that implies its activation function, a repeated id, a list and an object
among the parameters, and an edge with absent parts. -/
def savedText : String :=
  "\x7b\"nodes\": [\x7b\"id\": \"act\", \"type\": \"ReLU\", \"params\": \x7b\"note\": " ++
  "[1, null, \x7b\"y\": 2.5e3, \"x\": -7\x7d]\x7d\x7d, [\"act\", \"Flatten\"], " ++
  "\x7b\"id\": \"fc\", \"type\": \"dense\", \"params\": \x7b\"in_features\": 784, \"p\": 0.1, " ++
  "\"sizes\": [3, 2.5], \"activation\": \"caf\\u00e9\\n\"\x7d\x7d], " ++
  "\"edges\": [\x7b\"source\": \"fc\", \"target\": \"act\", \"id\": null\x7d]\x7d"

/-- A sketch with numbers among its arguments. -/
def sketchText : String :=
  "fc = Linear(in_features = 784, p = 0.25)\nr = gelu()\nfc -> r\n"

theorem Graph.reload_texts :
    (∃ g, Graph.ofText savedText = .ok g ∧ g.duplicates = ["act"] ∧ g.numbers.length = 5 ∧
      (∀ x ∈ g.numbers, x.isFinite → ReadsBack x) ∧
      Graph.ofText g.toText = .ok { g with duplicates := [] }) ∧
    ∃ g, Sketch.load sketchText = .ok g ∧ g.numbers.length = 2 ∧
      (∀ x ∈ g.numbers, x.isFinite ∧ (x.isFinite → ReadsBack x)) ∧
      Graph.ofText g.toText = .ok { g with duplicates := [] } := by
  constructor
  · have hcheck : (match Graph.ofText savedText with
        | .ok g => decide (g.duplicates = ["act"] ∧ g.numbers.length = 5 ∧
            ∀ x ∈ g.numbers, x.isFinite → ReadsBack x)
        | .error _ => false) = true := by decide +kernel
    rcases hload : Graph.ofText savedText with e | g
    · rw [hload] at hcheck
      cases hcheck
    · rw [hload] at hcheck
      obtain ⟨hduplicates, hlength, hprint⟩ := of_decide_eq_true hcheck
      exact ⟨g, rfl, hduplicates, hlength, hprint, Graph.reload (.inl hload) hprint⟩
  · have hcheck : (match Sketch.load sketchText with
        | .ok g => decide (g.numbers.length = 2 ∧
            ∀ x ∈ g.numbers, x.isFinite ∧ (x.isFinite → ReadsBack x))
        | .error _ => false) = true := by decide +kernel
    rcases hload : Sketch.load sketchText with e | g
    · rw [hload] at hcheck
      cases hcheck
    · rw [hload] at hcheck
      obtain ⟨hlength, hnumbers⟩ := of_decide_eq_true hcheck
      exact ⟨g, rfl, hlength, hnumbers, Graph.reload (.inr ⟨hload, fun x hx => (hnumbers x hx).1⟩)
        fun x hx => (hnumbers x hx).2⟩

end ShapeFlow
