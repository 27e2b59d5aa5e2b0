import ShapeFlow.Proofs.Persistence
import ShapeFlow.Proofs.Reading

/-!
# Which failure comes first

* `Param.FirstViolation`: the first stored parameter, in the order of the schema, that does not fit
  its entry.
* `Block.FirstOpen`: the first input, in the order of the block, without a shape.
* `Rule.Spares`: an outcome none of whose failures is about a parameter.
* `Block.rule_invalidParam_iff`: with parameters that conform to the schema, a rule objects to
  them iff attention has a configured width that its heads do not divide.
* `Block.failures_take_precedence`: **parameters come first, then open inputs, then the rule.**
-/

namespace ShapeFlow

/-! ## Parameters -/

namespace Param

variable {schema before after : List Spec} {params : Params} {spec : Spec} {reason : String}

/-- The first stored parameter, in the order of the schema, that does not fit its entry, with the
objection to it. -/
def FirstViolation (schema : List Spec) (params : Params) (spec : Spec) (reason : String) : Prop :=
  ∃ before after value, schema = before ++ spec :: after ∧ Conforms before params ∧
    params.get? spec.key = some value ∧ spec.kind.objection? value = some reason

/-- Parameters that do not conform have a first entry that they violate. -/
theorem exists_firstViolation (h : ¬ Conforms schema params) :
    ∃ spec reason, FirstViolation schema params spec reason := by
  induction schema with
  | nil =>
    have hnil : Conforms [] params := fun spec hspec => absurd hspec List.not_mem_nil
    exact absurd hnil h
  | cons first rest ih =>
    by_cases hfirst : Conforms [first] params
    · have hrest : ¬ Conforms rest params := by
        intro hrest
        refine h (List.forall_mem_cons.2 ⟨?_, hrest⟩)
        exact hfirst first (List.mem_singleton.2 rfl)
      obtain ⟨spec, reason, before, after, value, rfl, hbefore, hvalue, hreason⟩ := ih hrest
      refine ⟨spec, reason, first :: before, after, value, rfl, ?_, hvalue, hreason⟩
      exact List.forall_mem_cons.2 ⟨hfirst first (List.mem_singleton.2 rfl), hbefore⟩
    · simp only [Conforms, List.forall_mem_singleton, not_forall] at hfirst
      obtain ⟨value, hvalue, hobjection⟩ := hfirst
      obtain ⟨reason, hreason⟩ := Option.ne_none_iff_exists'.1 hobjection
      have hnil : Conforms [] params := fun spec hspec => absurd hspec List.not_mem_nil
      exact ⟨first, reason, [], rest, value, rfl, hnil, hvalue, hreason⟩

theorem checkSchema_append : checkSchema (before ++ after) params =
    checkSchema before params >>= fun _ => checkSchema after params := by
  induction before with
  | nil => rfl
  | cons first rest ih =>
    rw [List.cons_append, checkSchema, checkSchema, ih]
    cases params.get? first.key with
    | none => rfl
    | some value => exact (bind_assoc _ _ _).symm

/-- The schema check reports the first violation and nothing behind it. -/
theorem FirstViolation.checkSchema_eq (h : FirstViolation schema params spec reason) :
    checkSchema schema params = .error (.invalidParam spec.key reason) := by
  obtain ⟨before, after, value, rfl, hbefore, hvalue, hreason⟩ := h
  rw [checkSchema_append, conforms_iff.1 hbefore, ok_bind, checkSchema]
  simp only [hvalue, Spec.check, hreason]
  rfl

end Param

/-! ## Rules that object to no parameter -/

namespace Rule

variable {α β : Type} {x : Outcome α} {next : α → Outcome β} {settings : Settings}
  {inputs : Inputs} {shape : Shape} {d : Dim} {handle param key reason : String} {f : Failure}

/-- No failure of an outcome is about a parameter. -/
def Spares (x : Outcome α) : Prop := FailsOnly (fun f => ¬ f.error.OfSetting) x

theorem spares_ok (a : α) : Spares (.ok a : Outcome α) := failsOnly_ok a

theorem spares_error (h : ∀ key reason, f.error ≠ .invalidParam key reason) :
    Spares (.error f : Outcome α) := by
  refine failsOnly_error ?_
  rintro ⟨key, reason, heq⟩
  exact h key reason heq

/-- Two steps object to no parameter if neither of them does. -/
theorem spares_bind (hx : Spares x) (hnext : ∀ a, Spares (next a)) : Spares (x >>= next) :=
  failsOnly_bind hx fun a _ => hnext a

/-- A reader that finds a value does not fail. -/
theorem spares_configured {reading : Except ShapeError α} (h : ∃ a, reading = .ok a) :
    Spares (configured reading) := by
  obtain ⟨a, rfl⟩ := h
  exact spares_ok a

theorem spares_single : Spares (single inputs) := by
  unfold single
  split
  · exact spares_ok _
  · exact spares_error nofun

theorem spares_trailing : Spares (trailing handle shape) := by
  unfold trailing
  split
  · exact spares_ok _
  · exact spares_error nofun

theorem spares_expectSize {expected : UInt64} : Spares (expectSize param expected d) := by
  unfold expectSize
  split
  · split
    · exact spares_ok _
    · exact spares_error nofun
  · exact spares_ok _

/-- A constraint objects to a parameter only by failing to read it. -/
theorem spares_expectConstraint (h : (Reading.constraint param).Succeeds settings) :
    Spares (expectConstraint settings param d) := by
  refine spares_bind (spares_configured h) fun size => ?_
  cases size with
  | none => exact spares_ok _
  | some expected => exact spares_expectSize

theorem spares_expectWithin {maxLen : UInt64} : Spares (expectWithin maxLen d) := by
  unfold expectWithin
  split
  · split
    · exact spares_error nofun
    · exact spares_ok _
  · exact spares_ok _

theorem spares_resolveAxis {axis : Int} : Spares (resolveAxis shape axis) := by
  unfold resolveAxis
  split
  · exact spares_ok _
  · exact spares_error nofun

theorem spares_convExtent {axis : String} {kernel stride padding : UInt64} :
    Spares (convExtent axis d kernel stride padding) := by
  unfold convExtent
  split
  · exact spares_ok _
  · dsimp only
    split
    · exact spares_error nofun
    · exact spares_ok _

/-- A merge reports its mismatches, and these are about shapes. -/
theorem spares_mergeFrom {merge? : List Dim → List Dim → Option (List Dim)}
    {mismatch : Shape → ShapeError} {position : Nat} {merged : List Dim} {rest : List Shape}
    (h : ∀ s, ¬ (mismatch s).OfSetting) :
    Spares (mergeFrom merge? mismatch position merged rest) := by
  intro f hf
  obtain ⟨i, s, -, rfl⟩ := mergeFrom_error hf
  exact h s

theorem spares_agreeOn {fixed : Option UInt64} {connected : List (String × Shape)} :
    Spares (agreeOn fixed connected) := by
  intro f hf
  obtain ⟨handle, x, -, e, he, rfl⟩ := agreeOn_error hf
  rintro ⟨key, reason, h⟩
  cases he <;> cases h

/-! ### The rules -/

theorem input_spares (h : ∀ r ∈ Block.input.readings, r.Succeeds settings) :
    Spares (input settings) := by
  have hdataset : (Reading.text "dataset").Succeeds settings := h _ List.mem_cons_self
  refine spares_bind (spares_configured hdataset) fun name => ?_
  split
  · exact spares_ok _
  · exact spares_error nofun

theorem textInput_spares (h : ∀ r ∈ Block.textInput.readings, r.Succeeds settings) :
    Spares (textInput settings) := by
  have hlength : (Reading.word "seq_len").Succeeds settings := h _ List.mem_cons_self
  exact spares_bind (spares_configured hlength) fun _ => spares_ok _

/-- Once its sizes are read, a linear layer objects to shapes only, and so does every other rule. -/
theorem linear_spares (h : ∀ r ∈ Block.linear.readings, r.Succeeds settings) :
    Spares (linear settings shape) := by
  have hin : (Reading.word "in_features").Succeeds settings := h _ (by decide)
  have hout : (Reading.word "out_features").Succeeds settings := h _ (by decide)
  refine spares_bind (spares_configured hin) fun inFeatures => ?_
  refine spares_bind (spares_configured hout) fun outFeatures => ?_
  refine spares_bind spares_trailing fun last => ?_
  exact spares_bind spares_expectSize fun _ => spares_ok _

theorem conv2D_spares (h : ∀ r ∈ Block.conv2D.readings, r.Succeeds settings) :
    Spares (conv2D settings shape) := by
  have hchannels : (Reading.constraint "in_channels").Succeeds settings := h _ (by decide)
  have hout : (Reading.word "out_channels").Succeeds settings := h _ (by decide)
  have hkernel : (Reading.pair "kernel_size").Succeeds settings := h _ (by decide)
  have hstride : (Reading.pair "stride").Succeeds settings := h _ (by decide)
  have hpadding : (Reading.pair "padding").Succeeds settings := h _ (by decide)
  unfold conv2D
  split
  · refine spares_bind (spares_expectConstraint hchannels) fun _ => ?_
    refine spares_bind (spares_configured hout) fun out => ?_
    refine spares_bind (spares_configured hkernel) fun kernel => ?_
    refine spares_bind (spares_configured hstride) fun stride => ?_
    refine spares_bind (spares_configured hpadding) fun padding => ?_
    refine spares_bind spares_convExtent fun height => ?_
    exact spares_bind spares_convExtent fun width => spares_ok _
  · exact spares_error nofun

/-- What is judged once the shape of a sequence or of one step of it is taken apart. -/
theorem recurrence_spares {features : Dim} {next : UInt64 → Bool → Outcome Shape}
    (h : ∀ r ∈ Block.lstm.readings, r.Succeeds settings)
    (hnext : ∀ hidden sequences, Spares (next hidden sequences)) :
    Spares (do
      expectConstraint settings "input_size" features
      let hidden ← configured (settings.word "hidden_size")
      let sequences ← configured (settings.flag "return_sequences")
      next hidden sequences) := by
  have hsize : (Reading.constraint "input_size").Succeeds settings := h _ (by decide)
  have hhidden : (Reading.word "hidden_size").Succeeds settings := h _ (by decide)
  have hsequences : (Reading.flag "return_sequences").Succeeds settings := h _ (by decide)
  refine spares_bind (spares_expectConstraint hsize) fun _ => ?_
  refine spares_bind (spares_configured hhidden) fun hidden => ?_
  exact spares_bind (spares_configured hsequences) fun sequences => hnext hidden sequences

theorem lstm_spares (h : ∀ r ∈ Block.lstm.readings, r.Succeeds settings) :
    Spares (lstm settings shape) := by
  unfold lstm
  dsimp only
  split
  · exact recurrence_spares h fun hidden sequences => spares_ok _
  · refine recurrence_spares h fun hidden sequences => ?_
    cases sequences with
    | true => exact spares_ok _
    | false => exact spares_ok _
  · exact spares_error nofun

theorem layerNorm_spares (h : ∀ r ∈ Block.layerNorm.readings, r.Succeeds settings) :
    Spares (layerNorm settings shape) := by
  have hsize : (Reading.constraint "normalized_shape").Succeeds settings := h _ (by decide)
  refine spares_bind spares_trailing fun last => ?_
  exact spares_bind (spares_expectConstraint hsize) fun _ => spares_ok _

theorem batchNorm_spares (h : ∀ r ∈ Block.batchNorm.readings, r.Succeeds settings) :
    Spares (batchNorm settings shape) := by
  have hsize : (Reading.constraint "num_features").Succeeds settings := h _ (by decide)
  unfold batchNorm
  split
  · exact spares_error nofun
  · exact spares_bind (spares_expectConstraint hsize) fun _ => spares_ok _

theorem softmax_spares (h : ∀ r ∈ Block.softmax.readings, r.Succeeds settings) :
    Spares (softmax settings shape) := by
  have haxis : (Reading.signed "dim").Succeeds settings := h _ (by decide)
  refine spares_bind (spares_configured haxis) fun axis => ?_
  exact spares_bind spares_resolveAxis fun _ => spares_ok _

theorem embedding_spares (h : ∀ r ∈ Block.embedding.readings, r.Succeeds settings) :
    Spares (embedding settings shape) := by
  have hwidth : (Reading.word "embedding_dim").Succeeds settings := h _ (by decide)
  refine spares_bind (spares_configured hwidth) fun width => ?_
  split
  · exact spares_ok _
  · exact spares_error nofun

theorem positionalEncoding_spares
    (h : ∀ r ∈ Block.positionalEncoding.readings, r.Succeeds settings) :
    Spares (positionalEncoding settings shape) := by
  have hwidth : (Reading.constraint "d_model").Succeeds settings := h _ (by decide)
  have hlength : (Reading.word "max_len").Succeeds settings := h _ (by decide)
  refine spares_bind spares_trailing fun last => ?_
  refine spares_bind (spares_expectConstraint hwidth) fun _ => ?_
  split
  · refine spares_bind (spares_configured hlength) fun maxLen => ?_
    exact spares_bind spares_expectWithin fun _ => spares_ok _
  · exact spares_ok _

theorem positionalEmbedding_spares
    (h : ∀ r ∈ Block.positionalEmbedding.readings, r.Succeeds settings) :
    Spares (positionalEmbedding settings shape) := by
  have hwidth : (Reading.constraint "d_model").Succeeds settings := h _ (by decide)
  have hlength : (Reading.word "max_len").Succeeds settings := h _ (by decide)
  unfold positionalEmbedding
  split
  · refine spares_bind (spares_expectConstraint hwidth) fun _ => ?_
    refine spares_bind (spares_configured hlength) fun maxLen => ?_
    exact spares_bind spares_expectWithin fun _ => spares_ok _
  · exact spares_error nofun

theorem add_spares : Spares (add inputs) := by
  unfold add
  split
  · exact spares_error nofun
  · exact spares_mergeFrom fun s => nofun

theorem concat_spares (h : ∀ r ∈ Block.concat.readings, r.Succeeds settings) :
    Spares (concat settings inputs) := by
  have haxis : (Reading.signed "axis").Succeeds settings := h _ (by decide)
  unfold concat
  split
  · exact spares_error nofun
  · refine spares_bind (spares_configured haxis) fun wanted => ?_
    refine spares_bind spares_resolveAxis fun axis => ?_
    exact spares_mergeFrom fun s => nofun

/-- The configured width of attention is not a multiple of its heads, in the words for it. -/
def Indivisible (settings : Settings) (key reason : String) : Prop :=
  ∃ width heads : UInt64, settings.word "embed_dim" = .ok width ∧ 0 < width ∧
    settings.word "num_heads" = .ok heads ∧ ¬ heads.toNat ∣ width.toNat ∧ key = "num_heads" ∧
      reason = s!"embed_dim {width.toNat} is not divisible by {heads.toNat} heads"

theorem mod_ne_zero_iff {width heads : UInt64} (hheads : 0 < heads) :
    width % max heads 1 ≠ 0 ↔ ¬ heads.toNat ∣ width.toNat := by
  rw [max_one_of_pos hheads, Nat.dvd_iff_mod_eq_zero, ← UInt64.toNat_mod, ← UInt64.toNat_zero,
    UInt64.toNat_inj]

variable {width heads : UInt64}

/-- The configured width, which 0 leaves open. -/
def fixedWidth (width : UInt64) : Option UInt64 := if width = 0 then none else some width

theorem constraint_eq_fixedWidth {key : String} (h : settings.word key = .ok width) :
    settings.constraint key = .ok (fixedWidth width) :=
  bind_eq_ok_iff.2 ⟨width, h, rfl⟩

/-- A width that the heads divide leaves the inputs to be judged. -/
theorem attention_of_dvd (hwidth : settings.word "embed_dim" = .ok width)
    (hheads : settings.word "num_heads" = .ok heads) (hpos : 0 < heads)
    (hdvd : heads.toNat ∣ width.toNat) : attention settings inputs =
      agreeOn (fixedWidth width) (attentionInputs inputs) >>= fun _ =>
        .ok (((attentionInputs inputs).head?.map (·.2)).getD ⟨[]⟩) := by
  rw [attention, constraint_eq_fixedWidth hwidth, hheads, configured_ok, configured_ok, ok_bind,
    ok_bind]
  unfold fixedWidth
  split
  · rfl
  · exact if_neg fun hne => (mod_ne_zero_iff hpos).1 hne hdvd

/-- The one objection of a rule to parameters that conform: the heads do not divide the width. -/
theorem attention_of_not_dvd (hwidth : settings.word "embed_dim" = .ok width)
    (hheads : settings.word "num_heads" = .ok heads) (hpos : 0 < heads)
    (hdvd : ¬ heads.toNat ∣ width.toNat) : attention settings inputs =
      .error (.ofError (.invalidParam "num_heads"
        s!"embed_dim {width.toNat} is not divisible by {heads.toNat} heads")) := by
  have hwidthPos : width ≠ 0 := by
    rintro rfl
    exact hdvd (Nat.dvd_zero _)
  rw [attention, constraint_eq_fixedWidth hwidth, hheads, configured_ok, configured_ok, ok_bind,
    ok_bind, fixedWidth, if_neg hwidthPos]
  exact if_pos ((mod_ne_zero_iff hpos).2 hdvd)

/-- **Attention objects to its parameters** iff it has a width that its heads do not divide. -/
theorem attention_invalidParam_iff (h : ∀ r ∈ Block.attention.readings, r.Succeeds settings)
    (hpos : ∀ n, settings.word "num_heads" = .ok n → 0 < n) :
    (∃ f, attention settings inputs = .error f ∧ f.error = .invalidParam key reason) ↔
      Indivisible settings key reason := by
  obtain ⟨fixed, hfixed⟩ : (Reading.constraint "embed_dim").Succeeds settings := h _ (by decide)
  obtain ⟨heads, hheads⟩ : (Reading.word "num_heads").Succeeds settings := h _ (by decide)
  obtain ⟨width, hwidth, -⟩ := bind_eq_ok_iff.1 hfixed
  by_cases hdvd : heads.toNat ∣ width.toNat
  · -- only shapes are left to object to
    rw [attention_of_dvd hwidth hheads (hpos heads hheads) hdvd]
    refine iff_of_false ?_ ?_
    · rintro ⟨f, hf, herror⟩
      exact spares_bind spares_agreeOn (fun _ => spares_ok _) f hf ⟨key, reason, herror⟩
    · rintro ⟨width', heads', hwidth', -, hheads', hnot, -⟩
      cases hwidth.symm.trans hwidth'
      cases hheads.symm.trans hheads'
      exact hnot hdvd
  · have hwidthPos : 0 < width := by
      rw [UInt64.pos_iff_ne_zero]
      rintro rfl
      exact hdvd (Nat.dvd_zero _)
    rw [attention_of_not_dvd hwidth hheads (hpos heads hheads) hdvd]
    constructor
    · rintro ⟨f, hf, herror⟩
      cases hf
      cases herror
      exact ⟨width, heads, hwidth, hwidthPos, hheads, hdvd, rfl, rfl⟩
    · rintro ⟨width', heads', hwidth', -, hheads', -, rfl, rfl⟩
      cases hwidth.symm.trans hwidth'
      cases hheads.symm.trans hheads'
      exact ⟨_, rfl, rfl⟩

end Rule

/-! ## Blocks -/

namespace Block

variable {block : Block} {params : Params} {inputs : Inputs} {key reason : String}

/-- No rule but that of attention objects to parameters whose readers find values. -/
theorem rule_spares (hblock : block ≠ attention)
    (h : ∀ r ∈ block.readings, r.Succeeds (block.settings params)) :
    Rule.Spares (block.rule params inputs) := by
  have hsingle : ∀ {rule : Shape → Outcome Shape}, (∀ x, Rule.Spares (rule x)) →
      Rule.Spares (Rule.single inputs >>= rule) :=
    fun hrule => Rule.spares_bind Rule.spares_single hrule
  cases block with
  | attention => exact absurd rfl hblock
  | input => exact Rule.input_spares h
  | textInput => exact Rule.textInput_spares h
  | linear => exact hsingle fun _ => Rule.linear_spares h
  | conv2D => exact hsingle fun _ => Rule.conv2D_spares h
  | lstm => exact hsingle fun _ => Rule.lstm_spares h
  | layerNorm => exact hsingle fun _ => Rule.layerNorm_spares h
  | batchNorm => exact hsingle fun _ => Rule.batchNorm_spares h
  | softmax => exact hsingle fun _ => Rule.softmax_spares h
  | activation | dropout | output => exact Rule.spares_single
  | flatten => exact failsOnly_map _ Rule.spares_single
  | embedding | textEmbedding => exact hsingle fun _ => Rule.embedding_spares h
  | add => exact Rule.add_spares
  | concat => exact Rule.concat_spares h
  | positionalEncoding => exact hsingle fun _ => Rule.positionalEncoding_spares h
  | positionalEmbedding => exact hsingle fun _ => Rule.positionalEmbedding_spares h
  | board => exact Rule.spares_ok _

/-- **When a rule objects to a parameter**, all of which conform to the schema: only attention
does, and only to heads that do not divide its width. -/
theorem rule_invalidParam_iff (hconforms : Param.Conforms block.schema params) :
    (∃ f, block.rule params inputs = .error f ∧ f.error = .invalidParam key reason) ↔
      block = attention ∧ Rule.Indivisible (block.settings params) key reason := by
  have hreadings := readings_succeed hconforms
  by_cases hblock : block = attention
  · subst hblock
    rw [and_iff_right rfl]
    exact Rule.attention_invalidParam_iff hreadings fun _ => Settings.word_pos rfl
  · refine iff_of_false ?_ fun h => hblock h.1
    rintro ⟨f, hf, herror⟩
    exact rule_spares hblock hreadings f hf ⟨key, reason, herror⟩

/-- No input is missing for a rule when all are connected. -/
theorem rule_ne_missingInput
    (hconnected : ∀ handle ∈ block.inputs, inputs.isConnected handle.name = true) {f : Failure}
    (hrule : block.rule params inputs = .error f) (name : String) :
    f.error ≠ .missingInput name := by
  intro herror
  obtain ⟨hhandle, -⟩ := (block.rule_fault params inputs f hrule).all_eq_nil_of_missingInput herror
  have hblames := blamesInput_of_connected hconnected hrule (by rw [hhandle]; rfl)
  simp [blamesInput, herror] at hblames

/-- The first input, in the order of the block, without a shape. -/
def FirstOpen (handles : List InputHandle) (inputs : Inputs) (handle : InputHandle) : Prop :=
  ∃ before after, handles = before ++ handle :: after ∧
    (∀ h ∈ before, inputs.isConnected h.name = true) ∧ inputs.isConnected handle.name = false

/-- If not all handles are connected, there is a first one that is open. -/
theorem exists_firstOpen {handles : List InputHandle}
    (h : ¬ ∀ handle ∈ handles, inputs.isConnected handle.name = true) :
    ∃ handle, FirstOpen handles inputs handle := by
  simp only [not_forall, Bool.not_eq_true] at h
  obtain ⟨handle', hmem, hopen⟩ := h
  have hfound : (handles.find? fun handle => !inputs.isConnected handle.name).isSome := by
    rw [List.find?_isSome]
    exact ⟨handle', hmem, by simpa using hopen⟩
  obtain ⟨handle, hhandle⟩ := Option.isSome_iff_exists.1 hfound
  obtain ⟨hopen, before, after, hsplit, hbefore⟩ := List.find?_eq_some_iff_append.1 hhandle
  exact ⟨handle, before, after, hsplit, by simpa using hbefore, by simpa using hopen⟩

theorem FirstOpen.requireConnected_eq {handles : List InputHandle} {handle : InputHandle}
    (h : FirstOpen handles inputs handle) :
    requireConnected inputs handles = .error (Rule.missing handle.name) := by
  obtain ⟨before, after, rfl, hbefore, hopen⟩ := h
  induction before with
  | nil => simp [requireConnected, hopen]
  | cons first rest ih =>
    obtain ⟨hfirst, hrest⟩ := List.forall_mem_cons.1 hbefore
    rw [List.cons_append, requireConnected, if_pos hfirst]
    exact ih hrest

/-- The first stored parameter that does not fit is reported, whatever the inputs are. -/
theorem outputShape_eq_of_firstViolation {spec : Param.Spec}
    (h : Param.FirstViolation block.schema params spec reason) :
    block.outputShape params inputs = .error (.ofError (.invalidParam spec.key reason)) := by
  rw [outputShape, h.checkSchema_eq]
  rfl

/-- The first open handle is reported before the rule is asked. -/
theorem FirstOpen.outputShape_eq {handle : InputHandle}
    (h : FirstOpen block.inputs inputs handle) (hconforms : Param.Conforms block.schema params) :
    block.outputShape params inputs = .error (Rule.missing handle.name) := by
  rw [outputShape, Param.conforms_iff.1 hconforms, Rule.configured_ok, ok_bind,
    h.requireConnected_eq]
  rfl

/-- **Parameters come first, then open inputs, then the rule.** Parameters that do not conform to
the schema are reported by the first one that does not fit, whatever the inputs are. With parameters
that conform, the first open input is reported, and with all inputs connected the rule decides. It
finds a value for everything that it reads, misses no input, and objects to a parameter only as
attention does to heads that do not divide its width. -/
theorem failures_take_precedence (block : Block) (params : Params) (inputs : Inputs) :
    (¬ Param.Conforms block.schema params → ∃ spec reason,
      Param.FirstViolation block.schema params spec reason ∧
        block.outputShape params inputs = .error (.ofError (.invalidParam spec.key reason))) ∧
    (Param.Conforms block.schema params →
      (¬ (∀ handle ∈ block.inputs, inputs.isConnected handle.name = true) → ∃ handle,
        FirstOpen block.inputs inputs handle ∧
          block.outputShape params inputs = .error (Rule.missing handle.name)) ∧
      ((∀ handle ∈ block.inputs, inputs.isConnected handle.name = true) →
        block.outputShape params inputs = block.rule params inputs ∧
          ∀ f name, block.rule params inputs = .error f → f.error ≠ .missingInput name) ∧
      (∀ key reason,
        (∃ f, block.rule params inputs = .error f ∧ f.error = .invalidParam key reason) ↔
          block = attention ∧ Rule.Indivisible (block.settings params) key reason) ∧
      ∀ reading ∈ block.readings, reading.Succeeds (block.settings params)) ∧
    ∀ others, (∀ reading ∈ block.readings,
      reading.Same (block.settings params) (block.settings others)) →
        block.rule params inputs = block.rule others inputs := by
  refine ⟨fun hnot => ?_, fun hconforms => ⟨fun hopen => ?_, fun hconnected => ⟨?_, ?_⟩, ?_, ?_⟩,
    ?_⟩
  · obtain ⟨spec, reason, hfirst⟩ := Param.exists_firstViolation hnot
    exact ⟨spec, reason, hfirst, outputShape_eq_of_firstViolation hfirst⟩
  · obtain ⟨handle, hfirst⟩ := exists_firstOpen hopen
    exact ⟨handle, hfirst, hfirst.outputShape_eq hconforms⟩
  · exact outputShape_eq_rule (Param.conforms_iff.1 hconforms) hconnected
  · exact fun f name hrule => rule_ne_missingInput hconnected hrule name
  · exact fun key reason => rule_invalidParam_iff hconforms
  · exact readings_succeed hconforms
  · exact fun others hsame => rule_congr_readings hsame inputs

/-- Attention without inputs: a fractional number of heads is an invalid parameter; a width of 6 for
4 heads is not yet, as its inputs are open, but is what the rule objects to. -/
theorem failures_take_precedence_heads :
    let halved : Params := Table.empty.insert "num_heads" (.number (1 / 2))
    let uneven : Params :=
      (Table.empty.insert "embed_dim" (.number 6)).insert "num_heads" (.number 4)
    ¬ Param.Conforms attention.schema halved ∧
    (∃ spec reason, Param.FirstViolation attention.schema halved spec reason ∧
      attention.outputShape halved .none = .error (.ofError (.invalidParam spec.key reason))) ∧
    Param.Conforms attention.schema uneven ∧
    (∃ handle, FirstOpen attention.inputs .none handle ∧
      attention.outputShape uneven .none = .error (Rule.missing handle.name)) ∧
    ∃ f, attention.rule uneven .none = .error f ∧
      f.error = .invalidParam "num_heads" "embed_dim 6 is not divisible by 4 heads" := by
  intro halved uneven
  have hhalved : ¬ Param.Conforms attention.schema halved := by
    rw [Param.conforms_iff]
    decide +kernel
  have huneven : Param.Conforms attention.schema uneven := by
    rw [Param.conforms_iff]
    decide +kernel
  have hopen : ¬ ∀ handle ∈ attention.inputs, Inputs.none.isConnected handle.name = true := by
    decide +kernel
  have hwidth : (attention.settings uneven).word "embed_dim" = .ok 6 := by decide +kernel
  have hheads : (attention.settings uneven).word "num_heads" = .ok 4 := by decide +kernel
  have hviolation := (failures_take_precedence attention halved .none).1 hhalved
  obtain ⟨hfirst, -, hrule, -⟩ := (failures_take_precedence attention uneven .none).2.1 huneven
  refine ⟨hhalved, hviolation, huneven, hfirst hopen, (hrule _ _).2 ⟨rfl, 6, 4, hwidth, ?_⟩⟩
  exact ⟨by decide, hheads, by decide, rfl, by decide +kernel⟩

end Block

end ShapeFlow
