import ShapeFlow.Proofs.Filling
import ShapeFlow.Proofs.Nesting

/-!
# What rules read of the parameters

* `Block.readings`: the parameters that the rule of a block reads, each with its reader.
* `Block.rule_congr_readings`: a rule sees nothing else of the parameters.
* `Block.defaults_fit`: every default passes the check of its own entry.
* `Block.readings_succeed`: **no reader fails on parameters that conform to the schema**, whether
  they are stored or left to their defaults.
-/

namespace ShapeFlow

/-! ## Stored values and their entries -/

namespace Param

variable {schema : List Spec} {params : Params} {spec : Spec} {value : Value} {bounds : Bounds}

/-- Every stored parameter that the schema knows fits its entry. -/
def Conforms (schema : List Spec) (params : Params) : Prop :=
  ∀ spec ∈ schema, ∀ value, params.get? spec.key = some value → spec.kind.objection? value = none

theorem Spec.check_eq_ok_iff : spec.check value = .ok () ↔ spec.kind.objection? value = none := by
  unfold Spec.check
  cases spec.kind.objection? value <;> simp

theorem conforms_iff : Conforms schema params ↔ checkSchema schema params = .ok () := by
  rw [checkSchema_eq_ok_iff]
  simp only [Spec.check_eq_ok_iff]
  rfl

/-! What a kind does not object to. -/

theorem Kind.eq_number_of_whole (h : (whole bounds).objection? value = none) :
    ∃ x, value = .number x ∧ bounds.wholeObjection? x = none := by
  cases value with
  | number x => exact ⟨x, rfl, h⟩
  | _ => cases h

theorem Kind.eq_numbers_of_extent (h : (extent bounds).objection? value = none) :
    (∃ x, value = .number x ∧ bounds.wholeObjection? x = none) ∨
      ∃ x y, value = .numbers [x, y] ∧ bounds.wholeObjection? x = none ∧
        bounds.wholeObjection? y = none := by
  cases value with
  | number x => exact Or.inl ⟨x, rfl, h⟩
  | numbers xs =>
    right
    simp only [objection?] at h
    split at h
    · cases h
    · next hlength =>
      obtain ⟨x, y, rfl⟩ := List.length_eq_two.1 (not_not.1 hlength)
      simp only [List.findSome?_eq_none_iff, List.forall_mem_cons] at h
      exact ⟨x, y, rfl, h.1, h.2.1⟩
  | _ => cases h

theorem Kind.eq_flag_of_flag (h : flag.objection? value = none) : ∃ b, value = .flag b := by
  cases value with
  | flag b => exact ⟨b, rfl⟩
  | _ => cases h

theorem Kind.eq_text_of_text (h : text.objection? value = none) : ∃ s, value = .text s := by
  cases value with
  | text s => exact ⟨s, rfl⟩
  | _ => cases h

end Param

/-- A divisor that is positive is taken as it is. -/
theorem max_one_of_pos {n : UInt64} (h : 0 < n) : max n 1 = n := by
  have hle : 1 ≤ n := UInt64.le_iff_toNat_le.2 (UInt64.lt_iff_toNat_lt.1 h)
  simp only [max]
  split
  · next hge => exact (UInt64.le_antisymm hge hle).symm
  · rfl

/-! ## Readers -/

/-- A parameter of a block together with the reader that its rule uses. -/
inductive Reading where
  | word (key : String)
  | constraint (key : String)
  | signed (key : String)
  | flag (key : String)
  | text (key : String)
  | pair (key : String)
deriving DecidableEq

namespace Reading

/-- The name of the parameter. -/
def key : Reading → String
  | word key | constraint key | signed key | flag key | text key | pair key => key

/-- The reader finds a value. -/
def Succeeds (settings : Settings) : Reading → Prop
  | word key => ∃ n, settings.word key = .ok n
  | constraint key => ∃ size?, settings.constraint key = .ok size?
  | signed key => ∃ n, settings.signed key = .ok n
  | flag key => ∃ b, settings.flag key = .ok b
  | text key => ∃ s, settings.text key = .ok s
  | pair key => ∃ sizes, settings.pair key = .ok sizes

/-- The reader answers the same for two settings. -/
def Same (settings others : Settings) : Reading → Prop
  | word key => settings.word key = others.word key
  | constraint key => settings.constraint key = others.constraint key
  | signed key => settings.signed key = others.signed key
  | flag key => settings.flag key = others.flag key
  | text key => settings.text key = others.text key
  | pair key => settings.pair key = others.pair key

/-- Whether the reader understands all values of a kind. -/
def suits : Reading → Param.Kind → Bool
  | word _, .whole bounds | constraint _, .whole bounds =>
    bounds.lower.any fun least => 0 ≤ least
  | signed _, .whole _ => true
  | flag _, .flag => true
  | text _, .text => true
  | pair _, .extent _ => true
  | _, _ => false

end Reading

namespace Settings

variable {settings : Settings} {key : String} {spec : Param.Spec} {value : Param.Value}
  {bounds : Param.Bounds}

/-- The value under a declared name is the stored one or the default, and fits its entry. -/
theorem exists_value (hspec : settings.schema.find? (·.key == key) = some spec)
    (hdefault : spec.kind.objection? spec.default = none)
    (hconforms : Param.Conforms settings.schema settings.params) :
    ∃ value, settings.value key = .ok value ∧ spec.kind.objection? value = none := by
  have hkey : spec.key = key := by simpa using List.find?_some hspec
  have hmem : spec ∈ settings.schema := List.mem_of_find?_eq_some hspec
  have hfits : spec.kind.objection? ((settings.params.get? key).getD spec.default) = none := by
    cases hstored : settings.params.get? key with
    | none => exact hdefault
    | some stored => exact hconforms spec hmem stored (hkey ▸ hstored)
  exact ⟨_, (value_eq_ok_iff hspec).2 ⟨Param.Spec.check_eq_ok_iff.2 hfits, rfl⟩, hfits⟩

theorem exists_word {least : Double} (hvalue : settings.value key = .ok value)
    (hfits : (Param.Kind.whole bounds).objection? value = none)
    (hlower : bounds.lower = some least) (hleast : 0 ≤ least) :
    ∃ n, settings.word key = .ok n := by
  obtain ⟨x, rfl, hx⟩ := Param.Kind.eq_number_of_whole hfits
  have hle : least ≤ x := Param.Bounds.le_of_wholeObjection? hlower hleast.2.1 hx
  exact ⟨x.toWord, word_of_value hvalue (Double.le_trans hleast hle)⟩

/-- **A reader finds a value** under an entry of a kind that suits it. -/
theorem succeeds_of_suits {reading : Reading} (hvalue : settings.value reading.key = .ok value)
    (hfits : spec.kind.objection? value = none) (hsuits : reading.suits spec.kind = true) :
    reading.Succeeds settings := by
  unfold Reading.suits at hsuits
  split at hsuits
  · next key kind bounds hkind =>
    obtain ⟨least, hlower, hleast⟩ := (Option.any_eq_true _ _).1 hsuits
    exact exists_word hvalue (hkind ▸ hfits) hlower (by simpa using hleast)
  · next key kind bounds hkind =>
    obtain ⟨least, hlower, hleast⟩ := (Option.any_eq_true _ _).1 hsuits
    obtain ⟨n, hn⟩ := exists_word hvalue (hkind ▸ hfits) hlower (by simpa using hleast)
    exact ⟨_, bind_eq_ok_iff.2 ⟨n, hn, rfl⟩⟩
  · next key kind bounds hkind =>
    obtain ⟨x, rfl, -⟩ := Param.Kind.eq_number_of_whole (hkind ▸ hfits)
    exact ⟨_, bind_eq_ok_iff.2 ⟨_, hvalue, rfl⟩⟩
  · next key kind hkind =>
    obtain ⟨b, rfl⟩ := Param.Kind.eq_flag_of_flag (hkind ▸ hfits)
    exact ⟨_, bind_eq_ok_iff.2 ⟨_, hvalue, rfl⟩⟩
  · next key kind hkind =>
    obtain ⟨s, rfl⟩ := Param.Kind.eq_text_of_text (hkind ▸ hfits)
    exact ⟨_, bind_eq_ok_iff.2 ⟨_, hvalue, rfl⟩⟩
  · next key kind bounds hkind =>
    obtain ⟨x, rfl, -⟩ | ⟨x, y, rfl, -⟩ := Param.Kind.eq_numbers_of_extent (hkind ▸ hfits)
    · exact ⟨_, bind_eq_ok_iff.2 ⟨_, hvalue, rfl⟩⟩
    · exact ⟨_, bind_eq_ok_iff.2 ⟨_, hvalue, rfl⟩⟩
  · cases hsuits

end Settings

/-! ## The readings of a block -/

namespace Block

/-- What the rule of a block reads of the parameters. -/
def readings : Block → List Reading
  | input => [.text "dataset"]
  | textInput => [.word "seq_len"]
  | linear => [.word "in_features", .word "out_features"]
  | conv2D =>
    [.constraint "in_channels", .word "out_channels", .pair "kernel_size", .pair "stride",
      .pair "padding"]
  | lstm => [.constraint "input_size", .word "hidden_size", .flag "return_sequences"]
  | attention => [.constraint "embed_dim", .word "num_heads"]
  | layerNorm => [.constraint "normalized_shape"]
  | batchNorm => [.constraint "num_features"]
  | softmax => [.signed "dim"]
  | embedding | textEmbedding => [.word "embedding_dim"]
  | concat => [.signed "axis"]
  | positionalEncoding | positionalEmbedding => [.constraint "d_model", .word "max_len"]
  | output | activation | dropout | flatten | add | board => []

theorem expectConstraint_congr {settings others : Settings} {param : String}
    (h : settings.constraint param = others.constraint param) :
    Rule.expectConstraint settings param = Rule.expectConstraint others param := by
  funext actual
  simp only [Rule.expectConstraint, h]

/-- **A rule sees nothing of the parameters but its readings.** -/
theorem rule_congr_readings {block : Block} {params others : Params}
    (h : ∀ reading ∈ block.readings, reading.Same (block.settings params) (block.settings others))
    (inputs : Inputs) : block.rule params inputs = block.rule others inputs := by
  have hsingle : ∀ {rule rule' : Shape → Outcome Shape}, (∀ x, rule x = rule' x) →
      (Rule.single inputs >>= rule) = (Rule.single inputs >>= rule') := by
    intro rule rule' hrule
    rw [funext hrule]
  cases block <;> simp only [readings, List.forall_mem_cons, Reading.Same] at h
  case output | activation | dropout | flatten | add | board => rfl
  case input => simp only [rule, Rule.input, h]
  case textInput => simp only [rule, Rule.textInput, h]
  case linear => exact hsingle fun x => by simp only [Rule.linear, h]
  case conv2D =>
    refine hsingle fun x => ?_
    simp only [Rule.conv2D, expectConstraint_congr h.1, h]
  case lstm =>
    refine hsingle fun x => ?_
    simp only [Rule.lstm, expectConstraint_congr h.1, h]
  case attention => simp only [rule, Rule.attention, h]
  case layerNorm =>
    refine hsingle fun x => ?_
    simp only [Rule.layerNorm, expectConstraint_congr h.1]
  case batchNorm =>
    refine hsingle fun x => ?_
    simp only [Rule.batchNorm, expectConstraint_congr h.1]
  case softmax => exact hsingle fun x => by simp only [Rule.softmax, h]
  case embedding | textEmbedding => exact hsingle fun x => by simp only [Rule.embedding, h]
  case concat => simp only [rule, Rule.concat, h]
  case positionalEncoding =>
    refine hsingle fun x => ?_
    simp only [Rule.positionalEncoding, expectConstraint_congr h.1, h]
  case positionalEmbedding =>
    refine hsingle fun x => ?_
    simp only [Rule.positionalEmbedding, expectConstraint_congr h.1, h]

/-- **Every default fits its own entry.** -/
theorem defaults_fit (block : Block) :
    ∀ spec ∈ block.schema, spec.kind.objection? spec.default = none := by
  cases block <;> decide +kernel

/-- Every parameter that is read is declared, with a kind that its reader understands. -/
theorem readings_suit (block : Block) : ∀ reading ∈ block.readings,
    (block.schema.find? (·.key == reading.key)).any
      (fun spec => reading.suits spec.kind) = true := by
  cases block <;> decide +kernel

/-- **No reader fails** on parameters that conform to the schema. -/
theorem readings_succeed {block : Block} {params : Params}
    (hconforms : Param.Conforms block.schema params) :
    ∀ reading ∈ block.readings, reading.Succeeds (block.settings params) := by
  intro reading hreading
  obtain ⟨spec, hspec, hsuits⟩ := (Option.any_eq_true _ _).1 (block.readings_suit reading hreading)
  have hdefault := block.defaults_fit spec (List.mem_of_find?_eq_some hspec)
  have hread : ∃ value, (block.settings params).value reading.key = .ok value ∧
      spec.kind.objection? value = none := Settings.exists_value hspec hdefault hconforms
  obtain ⟨value, hvalue, hfits⟩ := hread
  exact Settings.succeeds_of_suits hvalue hfits hsuits

end Block

end ShapeFlow
