import ShapeFlow.Proofs.Precedence

/-!
# What an error says of itself

* `Shape.Differ`: two shapes that cannot be merged.
* `ShapeError.Genuine`: the values in an error are a reason for it.
* `Shape.Obscured`: a misfit that is told apart from a later input, as the first one leaves open
  where they differ.
* `Block.failures_are_genuine_or_obscured`: **the values in an error are a reason for it**, unless
  it is about an obscured misfit.
-/

namespace ShapeFlow

/-- What is compatible with two sizes that differ is open. -/
theorem Dim.eq_unknown_of_compatible {a b c : Dim} (hb : a.compatible b = true)
    (hc : a.compatible c = true) (h : b.compatible c = false) : a = unknown := by
  cases a with
  | unknown => rfl
  | known m =>
    cases b with
    | unknown => cases h
    | known n =>
      cases c with
      | unknown => cases h
      | known k =>
        obtain rfl : m = n := by simpa [compatible] using hb
        rw [hc] at h
        cases h

namespace Shape

variable {axis? : Option Nat} {x y s first : Shape} {shapes earlier : List Shape} {i : Nat}

/-! ## Shapes that differ -/

/-- Two shapes differ in rank, or have incompatible dimensions at a position other than the axis. -/
def Differ (axis? : Option Nat) (x y : Shape) : Prop :=
  x.rank ≠ y.rank ∨ ∃ i < x.rank, axis? ≠ some i ∧ (x.entry i).compatible (y.entry i) = false

instance (axis? : Option Nat) (x y : Shape) : Decidable (Differ axis? x y) :=
  inferInstanceAs (Decidable (x.rank ≠ y.rank ∨
    ∃ i < x.rank, axis? ≠ some i ∧ (x.entry i).compatible (y.entry i) = false))

theorem not_differ_iff : ¬ Differ axis? x y ↔ x.rank = y.rank ∧
    ∀ i < x.rank, axis? ≠ some i → (x.entry i).compatible (y.entry i) = true := by
  simp [Differ]

theorem agree_iff_not_differ :
    Agree axis? shapes ↔ ∀ s ∈ shapes, ∀ t ∈ shapes, ¬ Differ axis? s t := by
  simp only [Agree, not_differ_iff]

theorem not_differ_self : ¬ Differ axis? x x :=
  agree_iff_not_differ.1 (agree_singleton axis? x) x List.mem_cons_self x List.mem_cons_self

theorem Differ.symm (h : Differ axis? x y) : Differ axis? y x := by
  by_cases hrank : x.rank = y.rank
  · obtain ⟨i, hi, haxis, hne⟩ := h.resolve_left (not_not.2 hrank)
    exact Or.inr ⟨i, hrank ▸ hi, haxis, by rwa [Dim.compatible_comm]⟩
  · exact Or.inl (Ne.symm hrank)

/-- Without an axis, shapes differ iff they are not compatible. -/
theorem differ_none_iff : Differ none x y ↔ x.compatible y = false := by
  rw [← Bool.not_eq_true, ← not_iff_not, not_not, not_differ_iff]
  simp only [compatible, Bool.and_eq_true, beq_iff_eq, List.all_eq_true]
  refine and_congr_right fun hrank => ?_
  constructor
  · intro h pair hpair
    obtain ⟨i, hi, rfl⟩ := List.mem_iff_getElem.1 hpair
    rw [List.length_zip] at hi
    have hx : i < x.dims.length := by omega
    have hy : i < y.dims.length := by omega
    have hcompatible := h i hx (Option.some_ne_none i).symm
    rw [entry, entry, List.getD_eq_getElem _ _ hx, List.getD_eq_getElem _ _ hy] at hcompatible
    rw [List.getElem_zip]
    exact hcompatible
  · intro h i hx _
    have hy : i < y.dims.length := by rwa [← rank, ← hrank]
    have hi : i < (x.dims.zip y.dims).length := by
      rw [List.length_zip]
      exact lt_min hx hy
    have hcompatible := h _ (List.getElem_mem hi)
    rw [List.getElem_zip] at hcompatible
    rw [entry, entry, List.getD_eq_getElem _ _ hx, List.getD_eq_getElem _ _ hy]
    exact hcompatible

/-- What does not agree with shapes that agree differs from one of them. -/
theorem exists_differ (hearlier : Agree axis? earlier) (h : ¬ Agree axis? (earlier ++ [x])) :
    ∃ s ∈ earlier, Differ axis? s x := by
  by_contra hno
  push Not at hno
  refine h (agree_iff_not_differ.2 fun s hs t ht => ?_)
  rw [List.mem_append, List.mem_singleton] at hs ht
  obtain hs | rfl := hs
  · obtain ht | rfl := ht
    · exact agree_iff_not_differ.1 hearlier s hs t ht
    · exact hno s hs
  · obtain ht | rfl := ht
    · exact fun hdiffer => hno t ht hdiffer.symm
    · exact not_differ_self

/-! ## Misfits -/

/-- The first misfit differs from a shape before it. -/
theorem FirstMisfit.exists_differ (h : FirstMisfit axis? shapes i x) :
    ∃ j < i, ∃ s, shapes[j]? = some s ∧ Differ axis? s x := by
  obtain ⟨hx, hbefore, hnot⟩ := h
  have hearlier : Agree axis? (shapes.take i) := by
    cases i with
    | zero => exact fun s hs => absurd hs (by simp)
    | succ i => exact hbefore i (Nat.lt_succ_self i)
  rw [List.take_add_one, hx] at hnot
  obtain ⟨s, hs, hdiffer⟩ := Shape.exists_differ hearlier hnot
  obtain ⟨j, hj⟩ := List.mem_iff_getElem?.1 hs
  rw [List.getElem?_take] at hj
  split at hj
  · next hlt => exact ⟨j, hlt, s, hj, hdiffer⟩
  · cases hj

/-- A shape differs from one between it and the first, at a position that the first leaves open. -/
def Obscured (axis? : Option Nat) (shapes : List Shape) (i : Nat) (first x : Shape) : Prop :=
  ∃ j s position, 0 < j ∧ j < i ∧ shapes[j]? = some s ∧ axis? ≠ some position ∧
    first.dim? position = some .unknown ∧ (s.entry position).compatible (x.entry position) = false

/-- **Why a shape is the first misfit**: it differs from the first shape, or from one between them
where the first leaves a dimension open. -/
theorem FirstMisfit.differ_or_obscured (h : FirstMisfit axis? shapes i x)
    (hfirst : shapes[0]? = some first) :
    Differ axis? first x ∨ Obscured axis? shapes i first x := by
  obtain ⟨j, hj, s, hs, hdiffer⟩ := h.exists_differ
  refine or_iff_not_imp_left.2 fun hsame => ?_
  have hpos : 0 < j := by
    refine Nat.pos_of_ne_zero fun hzero => hsame ?_
    subst hzero
    rw [hfirst] at hs
    cases hs
    exact hdiffer
  -- the first shape and the one that differs are both before the misfit, and so do not differ
  have hagree : ¬ Differ axis? first s := by
    refine agree_iff_not_differ.1 (h.2.1 j hj) first ?_ s ?_
    · exact List.mem_of_getElem? ((List.getElem?_take_of_lt (Nat.succ_pos j)).trans hfirst)
    · exact List.mem_of_getElem? ((List.getElem?_take_of_lt (Nat.lt_succ_self j)).trans hs)
  obtain ⟨hrank, hentries⟩ := not_differ_iff.1 hagree
  obtain ⟨hrank', hentries'⟩ := not_differ_iff.1 hsame
  have hranks : s.rank = x.rank := hrank.symm.trans hrank'
  obtain ⟨position, hlt, haxis, hne⟩ := hdiffer.resolve_left (not_not.2 hranks)
  rw [← hrank] at hlt
  have hopen : first.entry position = .unknown :=
    Dim.eq_unknown_of_compatible (hentries position hlt haxis) (hentries' position hlt haxis) hne
  refine ⟨j, s, position, hpos, hj, hs, haxis, ?_, hne⟩
  rw [dim?, List.getElem?_eq_getElem hlt, ← hopen, entry, List.getD_eq_getElem _ _ hlt]

end Shape

/-! ## Errors -/

/-- The values in an error are a reason for it. -/
def ShapeError.Genuine : ShapeError → Prop
  | dimensionMismatch _ expected actual => expected ≠ actual
  | embeddingDimMismatch expected actual => expected ≠ actual
  | shapeMismatch expected actual => expected.compatible actual = false
  | axisMismatch axis expected actual => Shape.Differ (some axis) expected actual
  | sequenceTooLong maxLen actual => maxLen < actual
  | invalidSpatialReduction _ size => size ≤ 0
  | axisOutOfRange axis rank => ¬ (-(rank : Int) ≤ axis ∧ axis < rank)
  | _ => True

theorem ShapeError.OfSetting.genuine {e : ShapeError} (h : e.OfSetting) : e.Genuine := by
  obtain ⟨key, reason, rfl⟩ := h
  exact trivial

theorem Objection.genuine {x : Shape} {e : ShapeError} (h : Objection x e) : e.Genuine := by
  cases h with
  | rank => exact trivial
  | axis h => exact Shape.axis?_eq_none_iff.1 h
  | size _ h | width _ h => exact Ne.symm h
  | length _ h | extent h => exact h

namespace Rule

variable {inputs : Inputs} {f : Failure} {settings : Settings} {α : Type}

/-- A failure without a position is not about a merge. -/
theorem Fault.genuine (h : Fault inputs f) (hposition : f.position = none) : f.error.Genuine := by
  cases h with
  | setting h => exact h.genuine
  | dataset | missing => exact trivial
  | shape _ h => exact h.genuine
  | sum | joint => cases hposition

/-! ### Rules that do not merge -/

/-- No failure of an outcome has a position. -/
def Unplaced (x : Outcome α) : Prop := FailsOnly (fun f => f.position = none) x

theorem unplaced_configured {reading : Except ShapeError α} : Unplaced (configured reading) := by
  intro f hf
  obtain ⟨e, -, rfl⟩ := configured_eq_error_iff.1 hf
  rfl

theorem unplaced_single : Unplaced (single inputs) := by
  unfold single
  split
  · exact failsOnly_ok _
  · exact failsOnly_error rfl

theorem unplaced_of_shapeFault {handle : String} {x : Shape} {y : Outcome α}
    (h : FailsOnly (ShapeFault handle x) y) : Unplaced y := by
  intro f hf
  obtain ⟨e, -, rfl⟩ | ⟨e, -, rfl⟩ := h f hf
  · rfl
  · rfl

theorem unplaced_single_bind {rule : Shape → Outcome α}
    (h : ∀ x, FailsOnly (ShapeFault Block.defaultInput x) (rule x)) :
    Unplaced (single inputs >>= rule) :=
  failsOnly_bind unplaced_single fun x _ => unplaced_of_shapeFault (h x)

theorem unplaced_input : Unplaced (input settings) := by
  refine failsOnly_bind unplaced_configured fun name _ => ?_
  split
  · exact failsOnly_ok _
  · exact failsOnly_error rfl

theorem unplaced_attention : Unplaced (attention settings inputs) := by
  intro f hf
  obtain ⟨e, -, rfl⟩ | ⟨fixed, hagree⟩ := attention_error hf
  · rfl
  · obtain ⟨handle, x, -, e, -, rfl⟩ := agreeOn_error hagree
    rfl

end Rule

namespace Block

variable {block : Block} {params : Params} {inputs : Inputs} {f : Failure} {first : Shape}
  {rest : List Shape}

theorem rule_unplaced (hadd : block ≠ add) (hconcat : block ≠ concat) :
    Rule.Unplaced (block.rule params inputs) := by
  cases block with
  | add => exact absurd rfl hadd
  | concat => exact absurd rfl hconcat
  | input => exact Rule.unplaced_input
  | textInput => exact failsOnly_bind Rule.unplaced_configured fun _ _ => failsOnly_ok _
  | linear => exact Rule.unplaced_single_bind fun _ => Rule.linear_shapeFault
  | conv2D => exact Rule.unplaced_single_bind fun _ => Rule.conv2D_shapeFault
  | lstm => exact Rule.unplaced_single_bind fun _ => Rule.lstm_shapeFault
  | attention => exact Rule.unplaced_attention
  | layerNorm => exact Rule.unplaced_single_bind fun _ => Rule.layerNorm_shapeFault
  | batchNorm => exact Rule.unplaced_single_bind fun _ => Rule.batchNorm_shapeFault
  | softmax => exact Rule.unplaced_single_bind fun _ => Rule.softmax_shapeFault
  | activation | dropout | output => exact Rule.unplaced_single
  | flatten => exact failsOnly_map _ Rule.unplaced_single
  | embedding | textEmbedding =>
    exact Rule.unplaced_single_bind fun _ => Rule.embedding_shapeFault
  | positionalEncoding =>
    exact Rule.unplaced_single_bind fun _ => Rule.positionalEncoding_shapeFault
  | positionalEmbedding =>
    exact Rule.unplaced_single_bind fun _ => Rule.positionalEmbedding_shapeFault
  | board => exact failsOnly_ok _

/-- A failure before the rule is about a parameter or an open input, and says nothing of shapes. -/
theorem genuine_or_rule_error (h : block.outputShape params inputs = .error f) :
    f.error.Genuine ∨ block.rule params inputs = .error f := by
  by_cases hconforms : Param.Conforms block.schema params
  · by_cases hconnected : ∀ handle ∈ block.inputs, inputs.isConnected handle.name = true
    · rw [outputShape_eq_rule (Param.conforms_iff.1 hconforms) hconnected] at h
      exact Or.inr h
    · obtain ⟨handle, hfirst⟩ := exists_firstOpen hconnected
      rw [hfirst.outputShape_eq hconforms] at h
      cases h
      exact Or.inl trivial
  · obtain ⟨spec, reason, hfirst⟩ := Param.exists_firstViolation hconforms
    rw [outputShape_eq_of_firstViolation hfirst] at h
    cases h
    exact Or.inl trivial

/-- The failure of a merge of shapes is about a misfit that the first of them obscures. -/
def ReportsObscured (axis? : Option Nat) (mismatch : Shape → Shape → ShapeError)
    (shapes : List Shape) (f : Failure) : Prop :=
  ∃ i first x, shapes[0]? = some first ∧ shapes[i]? = some x ∧
    f = .atPosition defaultInput i (mismatch first x) ∧ Shape.Obscured axis? shapes i first x

/-- The misfit in a failed merge differs from the first shape, or is obscured by it. -/
theorem differs_or_reportsObscured {axis? : Option Nat} {mismatch : Shape → Shape → ShapeError}
    {answer : Outcome Shape}
    (hclosed : Rule.ClosedForm axis? (mismatch first) (first :: rest) answer)
    (h : answer = .error f) :
    (∃ x, f.error = mismatch first x ∧ Shape.Differ axis? first x) ∨
      ReportsObscured axis? mismatch (first :: rest) f := by
  obtain ⟨i, x, hmisfit, rfl⟩ := (hclosed.error_iff f).1 h
  obtain hdiffer | hobscured := hmisfit.differ_or_obscured rfl
  · exact Or.inl ⟨x, rfl, hdiffer⟩
  · exact Or.inr ⟨i, first, x, rfl, hmisfit.1, rfl, hobscured⟩

theorem add_genuine_or_obscured (h : Rule.add inputs = .error f) : f.error.Genuine ∨
    ReportsObscured none .shapeMismatch (inputs.all defaultInput) f := by
  unfold Rule.add at h
  split at h
  · cases h
    exact Or.inl trivial
  · next first rest hall =>
    rw [hall]
    refine (differs_or_reportsObscured Rule.closedForm_unify h).imp_left ?_
    rintro ⟨x, herror, hdiffer⟩
    rw [herror]
    exact Shape.differ_none_iff.1 hdiffer

theorem concat_genuine_or_obscured (h : Rule.concat (concat.settings params) inputs = .error f) :
    f.error.Genuine ∨ ∃ axis,
      ReportsObscured (some axis) (.axisMismatch axis) (inputs.all defaultInput) f := by
  unfold Rule.concat at h
  split at h
  · cases h
    exact Or.inl trivial
  · next first rest hall =>
    rw [bind_eq_error_iff] at h
    obtain h | ⟨wanted, -, h⟩ := h
    · obtain ⟨e, he, rfl⟩ := Rule.configured_eq_error_iff.1 h
      exact Or.inl (Settings.signed_error he).genuine
    · rw [bind_eq_error_iff] at h
      obtain h | ⟨axis, haxis, h⟩ := h
      · obtain ⟨e, he, rfl⟩ | ⟨e, he, rfl⟩ := Rule.resolveAxis_shapeFault f h
        · exact Or.inl he.genuine
        · exact Or.inl he.genuine
      · have hlt : axis < first.rank :=
          ((Shape.axis?_eq_some_iff _ _ _).1 (Rule.resolveAxis_eq_ok_iff.1 haxis)).1
        rw [hall]
        refine (differs_or_reportsObscured (Rule.closedForm_joinAt hlt) h).imp ?_ ?_
        · rintro ⟨x, herror, hdiffer⟩
          rw [herror]
          exact hdiffer
        · exact fun hobscured => ⟨axis, hobscured⟩

/-- **The values in an error are a reason for it, or the first input obscures it.** A sum or a
concatenation reports its first input as what was expected, also when it compares with a dimension
that only a later input knows; then the two shapes that are reported need not differ. -/
theorem failures_are_genuine_or_obscured (h : block.outputShape params inputs = .error f) :
    f.error.Genuine ∨
    (block = add ∧ ReportsObscured none .shapeMismatch (inputs.all defaultInput) f) ∨
    (block = concat ∧ ∃ axis,
      ReportsObscured (some axis) (.axisMismatch axis) (inputs.all defaultInput) f) := by
  obtain hgenuine | hrule := genuine_or_rule_error h
  · exact Or.inl hgenuine
  · by_cases hadd : block = add
    · subst hadd
      exact (add_genuine_or_obscured hrule).imp_right fun h => Or.inl ⟨rfl, h⟩
    · by_cases hconcat : block = concat
      · subst hconcat
        exact (concat_genuine_or_obscured hrule).imp_right fun h => Or.inr ⟨rfl, h⟩
      · have hfault := block.rule_fault params inputs f hrule
        exact Or.inl (hfault.genuine (rule_unplaced hadd hconcat f hrule))

/-- Three inputs of which the first is open: the misfit is the third, and the shape that it differs
from is the second. -/
theorem failures_are_genuine_or_obscured_open :
    let inputs := Inputs.entering [⟨[.unknown]⟩, ⟨[.known 3]⟩, ⟨[.known 4]⟩]
    let f := Failure.atPosition "in" 2 (.shapeMismatch ⟨[.unknown]⟩ ⟨[.known 4]⟩)
    add.outputShape .empty inputs = .error f ∧
      ReportsObscured none .shapeMismatch (inputs.all defaultInput) f := by
  intro inputs f
  have hf : add.outputShape .empty inputs = .error f := by decide +kernel
  have hnot : ¬ f.error.Genuine := by
    change ¬ Shape.compatible ⟨[.unknown]⟩ ⟨[.known 4]⟩ = false
    decide
  obtain ⟨-, hobscured⟩ | ⟨hconcat, -⟩ := (failures_are_genuine_or_obscured hf).resolve_left hnot
  · exact ⟨hf, hobscured⟩
  · cases hconcat

/-- **Shapes that fit are reported as a mismatch**: an open dimension beside one of 4, in a sum and
in a concatenation along another axis, when an input between them has a dimension of 3. -/
theorem compatible_shapes_reported :
    (∃ f, add.outputShape .empty (.entering [⟨[.unknown]⟩, ⟨[.known 3]⟩, ⟨[.known 4]⟩]) =
      .error f ∧ f.error = .shapeMismatch ⟨[.unknown]⟩ ⟨[.known 4]⟩ ∧ ¬ f.error.Genuine) ∧
    ∃ f, concat.outputShape (Table.empty.insert "axis" (.number 0)) (.entering
        [⟨[.known 2, .unknown]⟩, ⟨[.known 2, .known 3]⟩, ⟨[.known 2, .known 4]⟩]) = .error f ∧
      f.error = .axisMismatch 0 ⟨[.known 2, .unknown]⟩ ⟨[.known 2, .known 4]⟩ ∧
        ¬ f.error.Genuine := by
  constructor
  · refine ⟨.atPosition "in" 2 (.shapeMismatch ⟨[.unknown]⟩ ⟨[.known 4]⟩),
      by decide +kernel, rfl, ?_⟩
    change ¬ Shape.compatible ⟨[.unknown]⟩ ⟨[.known 4]⟩ = false
    decide
  · refine ⟨.atPosition "in" 2 (.axisMismatch 0 ⟨[.known 2, .unknown]⟩ ⟨[.known 2, .known 4]⟩),
      by decide +kernel, rfl, ?_⟩
    change ¬ Shape.Differ (some 0) ⟨[.known 2, .unknown]⟩ ⟨[.known 2, .known 4]⟩
    decide

end Block

end ShapeFlow
