import ShapeFlow.Proofs.Equations
import ShapeFlow.Proofs.Filling
import ShapeFlow.Proofs.Verdict

/-!
# Shapes are well formed

* `Shape.WellFormed`: one to three dimensions, none of which is known to be 0.
* `Block.rule_yields`: **rules make well-formed shapes of well-formed inputs**, since the parameters
  that become sizes are positive, and sums and products of positive sizes are.
* `Graph.shapes_are_wellFormed`: every shape in the results of a graph is well formed, and so is
  every shape that an edge carries.
-/

namespace ShapeFlow

/-! ## No size of 0 -/

namespace Dim

variable {a b d : Dim} {n : Nat}

theorem known_ne_zero {n : UInt64} (h : 0 < n) : known n ≠ known 0 := by
  intro heq
  rw [known.inj heq] at h
  exact absurd h (by decide)

theorem ofNat?_ne_zero (h : ofNat? n = some d) (hn : 0 < n) : d ≠ known 0 := by
  rintro rfl
  obtain ⟨m, rfl, hm⟩ := (ofNat?_eq_some_iff _ _).1 h
  rw [← known.inj hm] at hn
  exact absurd hn (by decide)

/-- A number that is positive but too large for a word is unknown, and not 0. -/
theorem ofNat?_getD_ne_zero (hn : 0 < n) : (ofNat? n).getD unknown ≠ known 0 := by
  cases h : ofNat? n with
  | none => simp
  | some d => exact ofNat?_ne_zero h hn

theorem toNat_pos_of_ne_zero {m : UInt64} (h : known m ≠ known 0) : 0 < m.toNat := by
  rw [Nat.pos_iff_ne_zero]
  intro hm
  exact h (congrArg known (UInt64.toNat.inj hm))

/-- A sum of sizes is 0 only if all of them are. -/
theorem plus_ne_zero (ha : a ≠ known 0) : a.plus b ≠ known 0 := by
  intro h
  obtain ⟨m, n, rfl, -, hsum⟩ := plus_eq_known_iff.1 h
  have hpos := toNat_pos_of_ne_zero ha
  rw [UInt64.toNat_zero] at hsum
  omega

theorem foldl_plus_ne_zero (ds : List Dim) (ha : a ≠ known 0) : ds.foldl plus a ≠ known 0 := by
  induction ds generalizing a with
  | nil => exact ha
  | cons d ds ih => exact ih (plus_ne_zero ha)

theorem mul?_ne_zero (ha : a ≠ known 0) (hb : b ≠ known 0) (h : a.mul? b = some d) :
    d ≠ known 0 := by
  cases a with
  | unknown => simp [← Option.some.inj h]
  | known m =>
    cases b with
    | unknown => simp [← Option.some.inj h]
    | known n =>
      exact ofNat?_ne_zero h (Nat.mul_pos (toNat_pos_of_ne_zero ha) (toNat_pos_of_ne_zero hb))

/-- A product of sizes other than 0 is not 0, since it does not wrap. -/
theorem foldlM_mul?_ne_zero {ds : List Dim} (ha : a ≠ known 0) (hds : ∀ d ∈ ds, d ≠ known 0)
    (h : ds.foldlM mul? a = some b) : b ≠ known 0 := by
  induction ds generalizing a with
  | nil => rwa [← Option.some.inj h]
  | cons d ds ih =>
    obtain ⟨hd, hds⟩ := List.forall_mem_cons.1 hds
    obtain ⟨c, hc, h⟩ := Option.bind_eq_some_iff.1 h
    exact ih (mul?_ne_zero ha hd hc) hds h

end Dim

/-! ## Well-formed shapes -/

/-- One to three dimensions, none of which is known to be 0. -/
structure Shape.WellFormed (x : Shape) : Prop where
  rank_pos : 1 ≤ x.rank
  rank_le : x.rank ≤ 3
  noZero : x.NoZero

/-- Every input is well formed. -/
def Inputs.WellFormed (inputs : Inputs) : Prop := ∀ arrival ∈ inputs.arrivals, arrival.2.WellFormed

namespace Shape

variable {x : Shape}

theorem WellFormed.ne_zero (h : x.WellFormed) {d : Dim} (hd : d ∈ x.dims) : d ≠ .known 0 := by
  rintro rfl
  exact h.noZero hd

theorem wellFormed_mk {dims : List Dim} (hpos : 1 ≤ dims.length) (hle : dims.length ≤ 3)
    (h : ∀ d ∈ dims, d ≠ .known 0) : (⟨dims⟩ : Shape).WellFormed :=
  ⟨hpos, hle, fun hzero => h _ hzero rfl⟩

/-- A shape has no size of 0 if it has none off an axis and none at it. -/
theorem noZero_of_opened (axis : Nat) (hopened : (x.opened axis).NoZero) (hentry : x.entry axis ≠ .known 0) :
    x.NoZero := by
  intro hmem
  obtain ⟨i, hi⟩ := List.getElem?_of_mem hmem
  by_cases haxis : axis = i
  · exact hentry (entry_eq_known_iff.2 (haxis ▸ hi))
  · refine hopened (List.mem_of_getElem? (i := i) ?_)
    rw [opened, List.getElem?_set_ne haxis, hi]

end Shape

theorem Inputs.WellFormed.all {inputs : Inputs} (h : inputs.WellFormed) {handle : String} :
    ∀ x ∈ inputs.all handle, x.WellFormed := by
  intro x hx
  obtain ⟨arrival, harrival, rfl⟩ := List.mem_map.1 hx
  exact h arrival (List.mem_of_mem_filter harrival)

/-! ## What a rule yields -/

/-- Every value of an outcome has a property. -/
def YieldsOnly {α : Type} (P : α → Prop) (x : Outcome α) : Prop := ∀ a, x = .ok a → P a

section YieldsOnly

variable {α β : Type} {P : β → Prop} {x : Outcome α} {next : α → Outcome β}

theorem yieldsOnly_ok {b : β} (h : P b) : YieldsOnly P (.ok b) := by
  intro b' h'
  cases h'
  exact h

theorem yieldsOnly_error (f : Failure) : YieldsOnly P (.error f) := by
  intro b h
  cases h

theorem yieldsOnly_bind (h : ∀ a, x = .ok a → YieldsOnly P (next a)) :
    YieldsOnly P (x >>= next) := by
  intro b hb
  obtain ⟨a, ha, hb⟩ := bind_eq_ok_iff.1 hb
  exact h a ha b hb

end YieldsOnly

namespace Rule

variable {x : Shape} {inputs : Inputs} {settings : Settings} {P : Shape → Prop}

/-- A parameter that is positive becomes a size that is not 0. -/
theorem size_ne_zero {key : String} {n : UInt64}
    (hpos : ∀ n, settings.word key = .ok n → 0 < n)
    (h : configured (settings.word key) = .ok n) : Dim.known n ≠ .known 0 :=
  Dim.known_ne_zero (hpos n (configured_eq_ok_iff.1 h))

/-! ### Shapes of a rule's own making -/

theorem datasets_pos : ∀ entry ∈ datasets,
    1 ≤ entry.2.length ∧ entry.2.length ≤ 3 ∧ ∀ n ∈ entry.2, 0 < n := by
  simp [datasets]

/-- Every sample of a known dataset is well formed. -/
theorem wellFormed_of_datasetShape? {name : String} (h : datasetShape? name = some x) :
    x.WellFormed := by
  obtain ⟨sizes, hsizes, rfl⟩ := Option.map_eq_some_iff.1 h
  obtain ⟨before, after, hsplit, -⟩ := List.lookup_eq_some_iff.1 hsizes
  have hmem : (datasetKey name, sizes) ∈ datasets := by simp [hsplit]
  obtain ⟨hpos, hle, hsizes⟩ := datasets_pos _ hmem
  refine Shape.wellFormed_mk (by simpa using hpos) (by simpa using hle) ?_
  rw [List.forall_mem_map]
  exact fun n hn => Dim.known_ne_zero (hsizes n hn)

theorem input_yields : YieldsOnly Shape.WellFormed (input settings) := by
  unfold input
  refine yieldsOnly_bind fun name _ => ?_
  split
  · next h => exact yieldsOnly_ok (wellFormed_of_datasetShape? h)
  · exact yieldsOnly_error _

theorem textInput_yields (hpos : ∀ n, settings.word "seq_len" = .ok n → 0 < n) :
    YieldsOnly Shape.WellFormed (textInput settings) := by
  unfold textInput
  refine yieldsOnly_bind fun n hn => yieldsOnly_ok ?_
  have hn := size_ne_zero hpos hn
  exact Shape.wellFormed_mk (by simp) (by simp) (by simp [hn])

/-! ### Shapes made of one input -/

/-- A linear layer puts a parameter for the trailing dimension, and keeps the others. -/
theorem linear_yields (hpos : ∀ n, settings.word "out_features" = .ok n → 0 < n)
    (hx : x.WellFormed) : YieldsOnly Shape.WellFormed (linear settings x) := by
  unfold linear
  refine yieldsOnly_bind fun inFeatures _ => ?_
  refine yieldsOnly_bind fun n hn => ?_
  refine yieldsOnly_bind fun last _ => ?_
  refine yieldsOnly_bind fun _ _ => yieldsOnly_ok ?_
  have hn := size_ne_zero hpos hn
  have hrank := x.rank_withLast (.known n)
  refine ⟨?_, ?_, ?_⟩
  · omega
  · have hle := hx.rank_le
    omega
  · intro hzero
    rcases List.mem_append.1 hzero with hzero | hzero
    · exact hx.noZero (List.mem_of_mem_dropLast hzero)
    · exact hn (List.mem_singleton.1 hzero).symm

/-- A window that fits has a positive number of positions. -/
theorem convExtent_yields {axis : String} {d : Dim} {kernel stride padding : UInt64} :
    YieldsOnly (· ≠ .known 0) (convExtent axis d kernel stride padding) := by
  unfold convExtent
  split
  · exact yieldsOnly_ok (by simp)
  · dsimp only
    split
    · exact yieldsOnly_error _
    · exact yieldsOnly_ok (Dim.ofNat?_getD_ne_zero (by omega))

theorem conv2D_yields (hpos : ∀ n, settings.word "out_channels" = .ok n → 0 < n) :
    YieldsOnly Shape.WellFormed (conv2D settings x) := by
  unfold conv2D
  split
  · refine yieldsOnly_bind fun _ _ => ?_
    refine yieldsOnly_bind fun out hout => ?_
    refine yieldsOnly_bind fun kernel _ => ?_
    refine yieldsOnly_bind fun stride _ => ?_
    refine yieldsOnly_bind fun padding _ => ?_
    refine yieldsOnly_bind fun height hheight => ?_
    refine yieldsOnly_bind fun width hwidth => yieldsOnly_ok ?_
    have hout := size_ne_zero hpos hout
    have hheight := convExtent_yields height hheight
    have hwidth := convExtent_yields width hwidth
    exact Shape.wellFormed_mk (by simp) (by simp) (by simp [hout, hheight, hwidth])
  · exact yieldsOnly_error _

theorem lstm_yields (hpos : ∀ n, settings.word "hidden_size" = .ok n → 0 < n)
    (hx : x.WellFormed) : YieldsOnly Shape.WellFormed (lstm settings x) := by
  have hlast : ∀ n, configured (settings.word "hidden_size") = .ok n →
      (⟨[.known n]⟩ : Shape).WellFormed := by
    intro n hn
    have hn := size_ne_zero hpos hn
    exact Shape.wellFormed_mk (by simp) (by simp) (by simp [hn])
  unfold lstm
  dsimp only
  split
  · rw [ok_bind]
    refine yieldsOnly_bind fun _ _ => ?_
    refine yieldsOnly_bind fun hidden hhidden => ?_
    refine yieldsOnly_bind fun sequences _ => ?_
    exact yieldsOnly_ok (hlast hidden hhidden)
  · next steps features hdims =>
    have hsteps : steps ≠ .known 0 := hx.ne_zero (by simp [hdims])
    rw [ok_bind]
    refine yieldsOnly_bind fun _ _ => ?_
    refine yieldsOnly_bind fun hidden hhidden => ?_
    refine yieldsOnly_bind fun sequences _ => ?_
    cases sequences with
    | true =>
      have hhidden := (hlast hidden hhidden).ne_zero (List.mem_singleton.2 rfl)
      exact yieldsOnly_ok (Shape.wellFormed_mk (by simp) (by simp) (by simp [hsteps, hhidden]))
    | false => exact yieldsOnly_ok (hlast hidden hhidden)
  · exact yieldsOnly_error _

theorem embedding_yields (hpos : ∀ n, settings.word "embedding_dim" = .ok n → 0 < n)
    (hx : x.WellFormed) : YieldsOnly Shape.WellFormed (embedding settings x) := by
  unfold embedding
  refine yieldsOnly_bind fun n hn => ?_
  split
  · next steps hdims =>
    have hsteps : steps ≠ .known 0 := hx.ne_zero (by simp [hdims])
    have hn := size_ne_zero hpos hn
    exact yieldsOnly_ok (Shape.wellFormed_mk (by simp) (by simp) (by simp [hsteps, hn]))
  · exact yieldsOnly_error _

theorem flatten_wellFormed (hx : x.WellFormed) : (flatten x).WellFormed := by
  refine Shape.wellFormed_mk (by simp) (by simp) ?_
  rw [List.forall_mem_singleton]
  cases hproduct : x.product? with
  | none => simp
  | some d =>
    exact Dim.foldlM_mul?_ne_zero (by decide) (fun _ => hx.ne_zero) hproduct

/-! ### Shapes that pass -/

theorem layerNorm_yields (hx : P x) : YieldsOnly P (layerNorm settings x) := by
  unfold layerNorm
  exact yieldsOnly_bind fun _ _ => yieldsOnly_bind fun _ _ => yieldsOnly_ok hx

theorem batchNorm_yields (hx : P x) : YieldsOnly P (batchNorm settings x) := by
  unfold batchNorm
  split
  · exact yieldsOnly_error _
  · exact yieldsOnly_bind fun _ _ => yieldsOnly_ok hx

theorem softmax_yields (hx : P x) : YieldsOnly P (softmax settings x) := by
  unfold softmax
  exact yieldsOnly_bind fun _ _ => yieldsOnly_bind fun _ _ => yieldsOnly_ok hx

theorem positionalEncoding_yields (hx : P x) : YieldsOnly P (positionalEncoding settings x) := by
  unfold positionalEncoding
  refine yieldsOnly_bind fun _ _ => yieldsOnly_bind fun _ _ => ?_
  split
  · exact yieldsOnly_bind fun _ _ => yieldsOnly_bind fun _ _ => yieldsOnly_ok hx
  · exact yieldsOnly_ok hx

theorem positionalEmbedding_yields (hx : P x) : YieldsOnly P (positionalEmbedding settings x) := by
  unfold positionalEmbedding
  split
  · refine yieldsOnly_bind fun _ _ => ?_
    exact yieldsOnly_bind fun _ _ => yieldsOnly_bind fun _ _ => yieldsOnly_ok hx
  · exact yieldsOnly_error _

/-- Attention gives back its query. -/
theorem attention_yields (hquery : inputs.first? "query" = some x) (hx : P x) :
    YieldsOnly P (attention settings inputs) := by
  have hhead : ((attentionInputs inputs).head?.map (·.2)).getD ⟨[]⟩ = x := by
    simp [attentionInputs, attentionHandles, hquery]
  have hagree : ∀ fixed, YieldsOnly P (do
      agreeOn fixed (attentionInputs inputs)
      return ((attentionInputs inputs).head?.map (·.2)).getD ⟨[]⟩) :=
    fun fixed => yieldsOnly_bind fun _ _ => yieldsOnly_ok (hhead ▸ hx)
  unfold attention
  refine yieldsOnly_bind fun embedDim _ => yieldsOnly_bind fun heads _ => ?_
  cases embedDim with
  | none => exact hagree none
  | some dim =>
    dsimp only
    split
    · exact yieldsOnly_error _
    · exact hagree (some dim)

/-! ### Shapes made of several inputs -/

theorem add_yields (hinputs : inputs.WellFormed) : YieldsOnly Shape.WellFormed (add inputs) := by
  intro out h
  have hjoins := add_eq_ok_iff.1 h
  obtain ⟨x, hx⟩ := List.exists_mem_of_ne_nil _ hjoins.ne_nil
  have hrank : x.rank = out.rank := (hjoins.admits hx).rank_eq
  have hwf := hinputs.all x hx
  refine ⟨hrank ▸ hwf.rank_pos, hrank ▸ hwf.rank_le, ?_⟩
  exact hjoins.noZero fun s hs => (hinputs.all s hs).noZero

/-- A sum that is not too large is as positive as its first part. -/
theorem concat_yields (hinputs : inputs.WellFormed) :
    YieldsOnly Shape.WellFormed (concat settings inputs) := by
  intro out h
  obtain ⟨wanted, axis, -, -, hlays⟩ := concat_eq_ok_iff.1 h
  obtain ⟨x, hx⟩ := List.exists_mem_of_ne_nil _ hlays.ne_nil
  have hrank : x.rank = out.rank := hlays.rank_eq hx
  have hwf := hinputs.all x hx
  refine ⟨hrank ▸ hwf.rank_pos, hrank ▸ hwf.rank_le, Shape.noZero_of_opened axis ?_ ?_⟩
  · refine hlays.opened.noZero (List.forall_mem_map.2 fun s hs => ?_)
    exact (hinputs.all s hs).noZero.opened axis
  · rw [hlays.entry]
    cases hall : inputs.all Block.defaultInput with
    | nil => exact absurd hall hlays.ne_nil
    | cons first rest =>
      have hmem : first ∈ inputs.all Block.defaultInput := by simp [hall]
      have hfirst : first.entry axis ≠ .known 0 := fun hzero =>
        (hinputs.all first hmem).noZero (List.mem_of_getElem? (Shape.entry_eq_known_iff.1 hzero))
      rw [List.map_cons, List.foldl_cons, Dim.known_zero_plus]
      exact Dim.foldl_plus_ne_zero _ hfirst

theorem single_yields (hinputs : inputs.WellFormed) :
    YieldsOnly Shape.WellFormed (single inputs) := by
  intro x hx
  exact hinputs.all x (List.mem_of_head? (first?_of_single hx))

theorem single_bind_yields {rule : Shape → Outcome Shape} (hinputs : inputs.WellFormed)
    (h : ∀ x, x.WellFormed → YieldsOnly Shape.WellFormed (rule x)) :
    YieldsOnly Shape.WellFormed (single inputs >>= rule) :=
  yieldsOnly_bind fun x hx => h x (single_yields hinputs x hx)

end Rule

/-- **Rules make well-formed shapes of well-formed inputs**, once every handle has one. The one
block without tensors is left out. -/
theorem Block.rule_yields (block : Block) (params : Params) {inputs : Inputs}
    (hinputs : inputs.WellFormed)
    (hconnected : ∀ h ∈ block.inputs, inputs.isConnected h.name = true)
    (hblock : block.carriesTensors = true) :
    YieldsOnly Shape.WellFormed (block.rule params inputs) := by
  have hsingle : ∀ {rule : Shape → Outcome Shape},
      (∀ x, x.WellFormed → YieldsOnly Shape.WellFormed (rule x)) →
        YieldsOnly Shape.WellFormed (Rule.single inputs >>= rule) :=
    Rule.single_bind_yields hinputs
  cases block with
  | input => exact Rule.input_yields
  | textInput => exact Rule.textInput_yields fun _ => Settings.word_pos rfl
  | linear => exact hsingle fun _ => Rule.linear_yields fun _ => Settings.word_pos rfl
  | conv2D => exact hsingle fun _ _ => Rule.conv2D_yields fun _ => Settings.word_pos rfl
  | lstm => exact hsingle fun _ => Rule.lstm_yields fun _ => Settings.word_pos rfl
  | attention =>
    have hquery := hconnected ⟨"query", false⟩ (by decide)
    obtain ⟨x, rest, hall⟩ := List.exists_cons_of_ne_nil (l := inputs.all "query")
      (by simpa [Inputs.isConnected] using hquery)
    exact Rule.attention_yields (by rw [Inputs.first?, hall, List.head?_cons])
      (hinputs.all x (by rw [hall]; simp))
  | layerNorm => exact hsingle fun _ => Rule.layerNorm_yields
  | batchNorm => exact hsingle fun _ => Rule.batchNorm_yields
  | softmax => exact hsingle fun _ => Rule.softmax_yields
  | activation => exact Rule.single_yields hinputs
  | dropout => exact Rule.single_yields hinputs
  | output => exact Rule.single_yields hinputs
  | flatten =>
    intro out h
    cases hx : Rule.single inputs with
    | error f => simp [rule, hx, Except.map] at h
    | ok x =>
      simp only [rule, hx, Except.map, Except.ok.injEq] at h
      exact h ▸ Rule.flatten_wellFormed (Rule.single_yields hinputs x hx)
  | embedding => exact hsingle fun _ => Rule.embedding_yields fun _ => Settings.word_pos rfl
  | textEmbedding => exact hsingle fun _ => Rule.embedding_yields fun _ => Settings.word_pos rfl
  | add => exact Rule.add_yields hinputs
  | concat => exact Rule.concat_yields hinputs
  | positionalEncoding => exact hsingle fun _ => Rule.positionalEncoding_yields
  | positionalEmbedding => exact hsingle fun _ => Rule.positionalEmbedding_yields
  | board => cases hblock

/-! ## Whole graphs -/

namespace Graph

variable {g : Graph} {id : NodeId} {shape : Shape}

/-- What arrives at a node is well formed if the shapes of its sources are. -/
theorem arrivals_wellFormed
    (h : ∀ e ∈ g.incoming id, ∀ shape, g.recompute.shape? e.source = some shape →
      shape.WellFormed) : (arrivals g.results (g.incoming id)).WellFormed := by
  intro arrival harrival
  obtain ⟨e, he, hcarried⟩ := List.mem_filterMap.1 harrival
  obtain ⟨shape, hshape, rfl⟩ := Option.map_eq_some_iff.1 hcarried
  exact h e he shape hshape

/-- **Every output shape is well formed.** The shapes of the sources come first in the induction. -/
theorem shape?_wellFormed (h : g.recompute.shape? id = some shape) : shape.WellFormed := by
  -- what has a shape is not behind a cycle, so the induction along the edges starts
  have hcycle : ¬ g.recompute.ReportsCycle id := fun hcycle => by
    rw [shape?_of_reportsCycle hcycle] at h
    cases h
  have hacc : Acc g.Feeds id := not_not.1 (mt reportsCycle_iff_not_acc.2 hcycle)
  induction hacc generalizing shape with
  | intro id _ ih =>
    obtain ⟨result, hresult, -⟩ := Option.bind_eq_some_iff.1 h
    obtain ⟨node, hnode, hblock⟩ := carriesTensors_of_get? hresult
    have hmem := mem_tensorNodes_iff.2 ⟨hnode, hblock⟩
    obtain ⟨-, hhandles, hcarried, hrule⟩ :=
      Node.outputShape_eq_ok_iff.1 ((shape?_eq_some_iff hmem hcycle).1 h)
    have hinputs : (arrivals g.results (g.incoming id)).WellFormed :=
      arrivals_wellFormed fun e he shape hshape =>
        ih e.source (linked_of_incoming he) hshape (not_reportsCycle_source hcycle e he)
    have hconnected : ∀ h ∈ node.block.inputs,
        (arrivals g.results (g.incoming id)).isConnected h.name = true :=
      fun h hh => isConnected_arrivals hcarried (checkHandles_eq_ok_iff.1 hhandles h hh).1
    exact node.block.rule_yields node.params hinputs hconnected hblock shape hrule

/-- An edge that looks well carries the shape of the source of its first namesake. -/
theorem exists_source_of_ok {id : EdgeId} (h : g.recompute.edges.get? id = some (.ok shape)) :
    ∃ e ∈ g.activeEdges, e.id = id ∧ g.recompute.shape? e.source = some shape := by
  obtain ⟨c, hc, hverdict⟩ := Option.map_eq_some_iff.1 ((get?_verdicts id).symm.trans h)
  have hmem := List.mem_of_find?_eq_some hc
  obtain ⟨e, neglect?⟩ := c
  cases neglect? with
  | some neglect => cases hverdict
  | none =>
    refine ⟨e, mem_activeEdges_iff.2 hmem, by simpa using List.find?_some hc, ?_⟩
    cases hcarried : carried? g.results e with
    | none =>
      rw [show verdict g.results e none = .inactive from activeVerdict_of_bare hcarried] at hverdict
      cases hverdict
    | some s =>
      rw [← carried?_results, hcarried]
      change activeVerdict g.results e = .ok shape at hverdict
      unfold activeVerdict at hverdict
      rw [← carried?, hcarried] at hverdict
      dsimp only at hverdict
      split at hverdict
      · split at hverdict
        · cases hverdict
        · cases hverdict
          rfl
      · cases hverdict
        rfl

/-- **Shapes are well formed over whole runs.** Every output shape has one to three dimensions, none
of which is known to be 0, and so has every shape that an edge carries, or that arrives at a node. -/
theorem shapes_are_wellFormed (g : Graph) :
    (∀ id shape, g.recompute.nodes.get? id = some (.resolved shape) → shape.WellFormed) ∧
    (∀ id shape, g.recompute.edges.get? id = some (.ok shape) → shape.WellFormed) ∧
    ∀ id, (arrivals g.recompute.nodes (g.incoming id)).WellFormed := by
  refine ⟨fun id shape h => ?_, fun id shape h => ?_, fun id => ?_⟩
  · have hshape : g.recompute.shape? id = some shape := by
      rw [Recomputation.shape?, h]
      rfl
    exact shape?_wellFormed hshape
  · obtain ⟨e, -, -, hshape⟩ := exists_source_of_ok h
    exact shape?_wellFormed hshape
  · exact arrivals_wellFormed fun e _ shape => shape?_wellFormed

/-- A text that is longer than a word can tell, with its embedding flattened. -/
def saturated : Graph :=
  ⟨Table.ofList [("embed", ⟨.textEmbedding, Table.empty⟩), ("flat", ⟨.flatten, Table.empty⟩),
      ("text", ⟨.textInput, Table.empty.insert "seq_len" (.number 1000000000000000000000000000000)⟩)],
    [⟨"first", "text", "out", "embed", "in"⟩, ⟨"second", "embed", "out", "flat", "in"⟩], []⟩

/-- The length is cut to the largest word, and the product that overflows is unknown, but neither
becomes 0. -/
theorem shapes_are_wellFormed_saturated :
    saturated.recompute.edges.get? "second" =
        some (.ok ⟨[.known 18446744073709551615, .known 128]⟩) ∧
      (⟨[.known 18446744073709551615, .known 128]⟩ : Shape).WellFormed ∧
      saturated.recompute.nodes.get? "flat" = some (.resolved ⟨[.unknown]⟩) ∧
      (⟨[.unknown]⟩ : Shape).WellFormed := by
  obtain ⟨hnodes, hedges, -⟩ := shapes_are_wellFormed saturated
  have hsecond : saturated.recompute.edges.get? "second" =
      some (.ok ⟨[.known 18446744073709551615, .known 128]⟩) := by decide +kernel
  have hflat : saturated.recompute.nodes.get? "flat" = some (.resolved ⟨[.unknown]⟩) := by
    decide +kernel
  exact ⟨hsecond, hedges _ _ hsecond, hflat, hnodes _ _ hflat⟩

end Graph

end ShapeFlow
