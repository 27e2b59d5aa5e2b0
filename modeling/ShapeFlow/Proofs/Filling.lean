import ShapeFlow.Proofs.Fault
import ShapeFlow.Proofs.Monotone

/-!
# Accepted inputs can be filled

Inputs that leave dimensions open are accepted only if some sizes for these dimensions are.

* `Settings.word_pos`: a parameter with a least value of 1 is positive.
* `Rule.Fills`: a shape can be filled with positive sizes such that a rule accepts it.
* `Block.rule_fill`: **what a rule accepts can be filled**, with positive sizes unless inputs are
  compared and a dimension of 0 is among them.
-/

namespace ShapeFlow

open List

/-! ## Positive parameters -/

namespace Double

theorem place_one : (1 : Double).place = (1 : Double).rank := rfl

theorem rank_one_pos : 0 < (1 : Double).rank := by
  decide +kernel

theorem units_one : (1 : Double).units = unitsOfOne := by
  decide +kernel

theorem isNaN_one : (1 : Double).isNaN = false := by
  decide +kernel

/-- A number from one on has a positive integer part. -/
theorem toWord_pos {x : Double} (h : 1 ≤ x) : 0 < x.toWord := by
  obtain ⟨-, hnumber, hplace⟩ := le_iff.1 h
  rw [place_one] at hplace
  have hrank := rank_one_pos
  obtain ⟨hsign, hle⟩ : x.negative = false ∧ (1 : Double).rank ≤ x.rank := by
    unfold place at hplace
    split at hplace
    · omega
    · next hsign => exact ⟨by simpa using hsign, by omega⟩
  have hunits : unitsOfOne ≤ x.units := by
    rw [← units_one, ← Nat.not_lt, units_lt_units]
    exact Nat.not_lt.2 hle
  have hwhole : 0 < x.units / unitsOfOne := Nat.div_pos hunits unitsOfOne_pos
  have htruncate : x.truncate.toNat = x.units / unitsOfOne := by
    rw [truncate, hnumber, hsign]
    rfl
  rw [toWord, htruncate, UInt64.lt_iff_toNat_lt, UInt64.toNat_ofNat']
  simp only [UInt64.size, UInt64.toNat_zero]
  omega

end Double

namespace Param.Bounds

variable {bounds : Bounds} {x least : Double}

/-- Bounds let pass what is finite, whole and neither below nor above them. -/
theorem wholeObjection?_eq_none_iff : bounds.wholeObjection? x = none ↔ x.isFinite = true ∧
    (∀ least ∈ bounds.lower, ¬ x < least) ∧ (∀ greatest ∈ bounds.upper, ¬ greatest < x) ∧
      x.isWhole = true := by
  obtain ⟨lower, upper⟩ := bounds
  unfold wholeObjection? objection?
  cases lower <;> cases upper <;> cases x.isFinite <;> cases x.isWhole <;> simp

/-- What bounds let pass is from the least number on. -/
theorem le_of_wholeObjection? (hlower : bounds.lower = some least) (hleast : least.isNaN = false)
    (h : bounds.wholeObjection? x = none) : least ≤ x := by
  obtain ⟨hfinite, hbelow, -⟩ := wholeObjection?_eq_none_iff.1 h
  exact Double.le_of_not_lt (Double.isNaN_of_isFinite hfinite) hleast (hbelow least hlower)

end Param.Bounds

namespace Settings

variable {settings : Settings} {key : String} {n : UInt64}

/-- A number that is not negative is read as a word. -/
theorem word_of_value {x : Double} (hvalue : settings.value key = .ok (.number x)) (h : 0 ≤ x) :
    settings.word key = .ok x.toWord := by
  simp only [word, hvalue, ok_bind, if_pos h]
  rfl

theorem word_pos {default : Double}
    (hspec : settings.schema.find? (·.key == key) = some (.whole key 1 default))
    (h : settings.word key = .ok n) : 0 < n := by
  obtain ⟨value, hvalue, h⟩ := bind_eq_ok_iff.1 h
  have hcheck : (Param.Spec.whole key 1 default).check value = .ok () := by
    unfold Settings.value at hvalue
    rw [hspec] at hvalue
    obtain ⟨_, hcheck, hvalue⟩ := bind_eq_ok_iff.1 hvalue
    cases hvalue
    exact hcheck
  split at h
  · next x =>
    split at h
    · cases h
      unfold Param.Spec.check at hcheck
      split at hcheck
      · cases hcheck
      · next hnone =>
        exact Double.toWord_pos (Param.Bounds.le_of_wholeObjection? rfl Double.isNaN_one hnone)
    · cases h
  · cases h

/-- A size that binds is not 0, since 0 leaves the size open. -/
theorem constraint_pos (h : settings.constraint key = .ok (some n)) : 0 < n := by
  obtain ⟨size, -, hsize⟩ := bind_eq_ok_iff.1 h
  split at hsize
  · cases hsize
  · next hne =>
    cases hsize
    exact UInt64.pos_iff_ne_zero.2 hne

end Settings

/-! ## Dimensions of 0 -/

namespace Shape

variable {shapes : List Shape} {x : Shape} {i : Nat}

/-- No dimension is known to be 0. -/
def NoZero (x : Shape) : Prop := .known 0 ∉ x.dims

theorem NoZero.opened (h : x.NoZero) (axis : Nat) : (x.opened axis).NoZero := by
  intro hmem
  rcases List.mem_or_eq_of_mem_set hmem with hmem | hzero
  · exact h hmem
  · cases hzero

/-- A joint dimension of 0 comes from an input. -/
theorem Joins.noZero (h : Joins shapes x) (hshapes : ∀ s ∈ shapes, s.NoZero) : x.NoZero := by
  intro hmem
  obtain ⟨i, hi⟩ := List.getElem?_of_mem hmem
  obtain ⟨s, hs, hknown⟩ := h.exists_known hi
  exact hshapes s hs (List.mem_of_getElem? hknown)

/-- The known sizes by position, and 1 where none is known. -/
def sizes (x : Shape) (i : Nat) : UInt64 :=
  match x.dim? i with
  | some (.known n) => n
  | _ => 1

theorem sizes_eq {n : UInt64} (h : x.dim? i = some (.known n)) : n = x.sizes i := by
  rw [sizes, h]

/-- Filled from another shape, every size is positive unless this shape has a dimension of 0. -/
theorem sizes_pos (h : x.NoZero) (i : Nat) : 0 < x.sizes i := by
  unfold sizes
  split
  · next n hn =>
    refine UInt64.pos_iff_ne_zero.2 ?_
    rintro rfl
    exact h (List.mem_of_getElem? hn)
  · exact UInt64.zero_lt_one

theorem sizes_ofSizes_pos {sizes : List UInt64} (h : ∀ n ∈ sizes, 0 < n) (i : Nat) :
    0 < (ofSizes sizes).sizes i := by
  refine sizes_pos (fun hmem => ?_) i
  obtain ⟨n, hn, hzero⟩ := List.mem_map.1 hmem
  rw [Dim.known.inj hzero] at hn
  exact absurd (h 0 hn) (by decide)

/-- Filling at an axis does not matter once the axis is opened. -/
theorem opened_fill (size : Nat → UInt64) (axis : Nat) (x : Shape) :
    (x.fill size).opened axis = ((x.opened axis).fill size).opened axis := by
  refine congrArg Shape.mk (List.ext_getElem (by simp [fill, opened]) fun i hi hi' => ?_)
  by_cases h : axis = i
  · simp [h]
  · simp [fill, opened, h]

end Shape

/-! ## Filling a single shape -/

/-- An outcome that is not a failure. -/
def Succeeds {α : Type} (x : Outcome α) : Prop := ∃ a, x = .ok a

theorem succeeds_ok {α : Type} (a : α) : Succeeds (.ok a : Outcome α) := ⟨a, rfl⟩

/-- Two steps succeed when the first one does, and the second one does on what it gives. -/
theorem succeeds_bind {α β : Type} {x : Outcome α} {next : α → Outcome β} :
    Succeeds (x >>= next) ↔ ∃ a, x = .ok a ∧ Succeeds (next a) := by
  simp only [Succeeds, bind_eq_ok_iff]
  rw [exists_comm]
  simp only [exists_and_left]

namespace Rule

variable {x : Shape} {d : Dim} {settings : Settings} {param : String} {n : UInt64}

/-- A shape can be filled with positive sizes such that a rule accepts it. -/
def Fills (rule : Shape → Outcome Shape) (x : Shape) : Prop :=
  ∃ size : Nat → UInt64, (∀ i, 0 < size i) ∧ Succeeds (rule (x.fill size))

/-- The expected size fills an open dimension. -/
theorem expectSize_fill (h : expectSize param n d = .ok ()) :
    expectSize param n (d.fill n) = .ok () := by
  cases d with
  | unknown => simp [expectSize]
  | known m => exact h

/-- The size that the constraint asks for fills an open dimension, or any size where it asks for
none. -/
theorem expectConstraint_fill (h : expectConstraint settings param d = .ok ()) :
    ∃ n, 0 < n ∧ expectConstraint settings param (d.fill n) = .ok () := by
  obtain ⟨size, hsize, h⟩ := bind_eq_ok_iff.1 h
  cases size with
  | none => exact ⟨1, UInt64.zero_lt_one, bind_eq_ok_iff.2 ⟨none, hsize, rfl⟩⟩
  | some expected =>
    refine ⟨expected, Settings.constraint_pos (configured_eq_ok_iff.1 hsize), ?_⟩
    exact bind_eq_ok_iff.2 ⟨some expected, hsize, expectSize_fill h⟩

/-- A sequence of length 1 is not too long. -/
theorem expectWithin_fill (hpos : 0 < n) (h : expectWithin n d = .ok ()) :
    expectWithin n (d.fill 1) = .ok () := by
  cases d with
  | unknown =>
    have hlt : ¬ n < 1 := by
      rw [UInt64.lt_iff_toNat_lt] at hpos ⊢
      simp only [UInt64.toNat_zero, UInt64.toNat_one] at hpos ⊢
      omega
    simp [expectWithin, hlt]
  | known m => exact h

theorem max_one_bounds (n : UInt64) : 0 < max n 1 ∧ n.toNat ≤ (max n 1).toNat := by
  have hmax : max n 1 = if n ≤ 1 then 1 else n := rfl
  rw [hmax]
  split
  · next hle => exact ⟨UInt64.zero_lt_one, UInt64.le_iff_toNat_le.1 hle⟩
  · next hgt =>
    rw [UInt64.le_iff_toNat_le, UInt64.toNat_one] at hgt
    rw [UInt64.lt_iff_toNat_lt, UInt64.toNat_zero]
    omega

/-- An extent of the size of the kernel leaves a window to fit. -/
theorem convExtent_fill {axis : String} {kernel stride padding : UInt64}
    (h : Succeeds (convExtent axis d kernel stride padding)) :
    ∃ n, 0 < n ∧ Succeeds (convExtent axis (d.fill n) kernel stride padding) := by
  cases d with
  | known m => exact ⟨1, UInt64.zero_lt_one, h⟩
  | unknown =>
    obtain ⟨hpos, hkernel⟩ := max_one_bounds kernel
    have hcount : 0 < windowCount (max kernel 1) kernel stride padding := by
      unfold windowCount
      have hfits : (0 : Int) ≤ (max kernel 1).toNat + 2 * padding.toNat - kernel.toNat := by omega
      have hquotient := Int.ediv_nonneg hfits (Int.natCast_nonneg (max stride 1).toNat)
      omega
    refine ⟨max kernel 1, hpos, ?_⟩
    simp only [Dim.fill_unknown, convExtent]
    rw [if_neg (Int.not_le.2 hcount)]
    exact succeeds_ok _

theorem linear_fill (hpos : ∀ n, settings.word "in_features" = .ok n → 0 < n)
    (h : Succeeds (linear settings x)) : Fills (linear settings) x := by
  simp only [linear, succeeds_bind, configured_eq_ok_iff, trailing_eq_ok_iff] at h
  obtain ⟨inFeatures, hin, outFeatures, hout, last, hlast, _, hsize, _⟩ := h
  refine ⟨fun _ => inFeatures, fun _ => hpos inFeatures hin, ?_⟩
  simp only [linear, succeeds_bind, configured_eq_ok_iff, trailing_eq_ok_iff]
  refine ⟨inFeatures, hin, outFeatures, hout, _, ?_, (), expectSize_fill hsize, succeeds_ok _⟩
  rw [Shape.last?_fill, hlast, Option.map_some]

/-- Open channels are filled as the constraint asks, an open height or width with the size of the
kernel. -/
theorem conv2D_fill (h : Succeeds (conv2D settings x)) : Fills (conv2D settings) x := by
  obtain ⟨dims⟩ := x
  unfold conv2D at h
  split at h
  · next channels height width hdims =>
    cases hdims
    simp only [succeeds_bind, configured_eq_ok_iff] at h
    obtain ⟨_, hchannels, out, hout, kernel, hkernel, stride, hstride, padding, hpadding, _,
      hheight, _, hwidth, _⟩ := h
    obtain ⟨c, hc, hchannels⟩ := expectConstraint_fill hchannels
    obtain ⟨r, hr, _, hheight⟩ := convExtent_fill ⟨_, hheight⟩
    obtain ⟨w, hw, _, hwidth⟩ := convExtent_fill ⟨_, hwidth⟩
    refine ⟨(Shape.ofSizes [c, r, w]).sizes, Shape.sizes_ofSizes_pos (by simp [hc, hr, hw]), ?_⟩
    have hfill : Shape.fill (Shape.ofSizes [c, r, w]).sizes ⟨[channels, height, width]⟩ =
        ⟨[channels.fill c, height.fill r, width.fill w]⟩ := rfl
    rw [hfill]
    simp only [conv2D, succeeds_bind, configured_eq_ok_iff]
    exact ⟨(), hchannels, out, hout, kernel, hkernel, stride, hstride, padding, hpadding, _,
      hheight, _, hwidth, succeeds_ok _⟩
  · obtain ⟨out, h⟩ := h
    cases h

theorem lstm_fill (h : Succeeds (lstm settings x)) : Fills (lstm settings) x := by
  obtain ⟨dims⟩ := x
  match dims, h with
  | [features], h =>
    simp only [lstm, ok_bind, succeeds_bind, configured_eq_ok_iff] at h
    obtain ⟨_, hfeatures, hidden, hhidden, sequences, hsequences, h⟩ := h
    obtain ⟨n, hn, hfeatures⟩ := expectConstraint_fill hfeatures
    refine ⟨(Shape.ofSizes [n]).sizes, Shape.sizes_ofSizes_pos (by simp [hn]), ?_⟩
    have hfill : Shape.fill ((Shape.ofSizes [n]).sizes) ⟨[features]⟩ = ⟨[features.fill n]⟩ := rfl
    rw [hfill]
    simp only [lstm, ok_bind, succeeds_bind, configured_eq_ok_iff]
    exact ⟨(), hfeatures, hidden, hhidden, sequences, hsequences, succeeds_ok _⟩
  | [steps, features], h =>
    simp only [lstm, ok_bind, succeeds_bind, configured_eq_ok_iff] at h
    obtain ⟨_, hfeatures, hidden, hhidden, sequences, hsequences, h⟩ := h
    obtain ⟨n, hn, hfeatures⟩ := expectConstraint_fill hfeatures
    refine ⟨(Shape.ofSizes [1, n]).sizes, Shape.sizes_ofSizes_pos (by simp [hn]), ?_⟩
    have hfill : Shape.fill ((Shape.ofSizes [1, n]).sizes) ⟨[steps, features]⟩ =
        ⟨[steps.fill 1, features.fill n]⟩ := rfl
    rw [hfill]
    simp only [lstm, ok_bind, succeeds_bind, configured_eq_ok_iff]
    refine ⟨(), hfeatures, hidden, hhidden, sequences, hsequences, ?_⟩
    cases sequences with
    | true => exact succeeds_ok _
    | false => exact succeeds_ok _

theorem layerNorm_fill (h : Succeeds (layerNorm settings x)) : Fills (layerNorm settings) x := by
  simp only [layerNorm, succeeds_bind, trailing_eq_ok_iff] at h
  obtain ⟨last, hlast, _, hsize, _⟩ := h
  obtain ⟨n, hn, hsize⟩ := expectConstraint_fill hsize
  refine ⟨fun _ => n, fun _ => hn, ?_⟩
  simp only [layerNorm, succeeds_bind, trailing_eq_ok_iff]
  refine ⟨_, ?_, (), hsize, succeeds_ok _⟩
  rw [Shape.last?_fill, hlast, Option.map_some]

theorem batchNorm_fill (h : Succeeds (batchNorm settings x)) : Fills (batchNorm settings) x := by
  obtain ⟨dims⟩ := x
  cases dims with
  | nil =>
    obtain ⟨out, h⟩ := h
    cases h
  | cons channels rest =>
    simp only [batchNorm, succeeds_bind] at h
    obtain ⟨_, hchannels, _⟩ := h
    obtain ⟨n, hn, hchannels⟩ := expectConstraint_fill hchannels
    refine ⟨fun _ => n, fun _ => hn, ?_⟩
    rw [Shape.fill, List.mapIdx_cons]
    simp only [batchNorm, succeeds_bind]
    exact ⟨(), hchannels, succeeds_ok _⟩

theorem softmax_fill (h : Succeeds (softmax settings x)) : Fills (softmax settings) x := by
  simp only [softmax, succeeds_bind, configured_eq_ok_iff, resolveAxis_eq_ok_iff] at h
  obtain ⟨axis, haxis, position, hposition, _⟩ := h
  refine ⟨fun _ => 1, fun _ => UInt64.zero_lt_one, ?_⟩
  simp only [softmax, succeeds_bind, configured_eq_ok_iff, resolveAxis_eq_ok_iff]
  refine ⟨axis, haxis, position, ?_, succeeds_ok _⟩
  rw [Shape.axis?_eq_of_rank_eq (x.rank_fill _), hposition]

theorem embedding_fill (h : Succeeds (embedding settings x)) : Fills (embedding settings) x := by
  obtain ⟨dims⟩ := x
  obtain ⟨width, hwidth, h⟩ := succeeds_bind.1 h
  split at h
  · next steps hdims =>
    cases hdims
    refine ⟨fun _ => 1, fun _ => UInt64.zero_lt_one, ?_⟩
    exact succeeds_bind.2 ⟨width, hwidth, succeeds_ok _⟩
  · obtain ⟨out, h⟩ := h
    cases h

theorem positionalEmbedding_fill (hpos : ∀ n, settings.word "max_len" = .ok n → 0 < n)
    (h : Succeeds (positionalEmbedding settings x)) : Fills (positionalEmbedding settings) x := by
  obtain ⟨dims⟩ := x
  unfold positionalEmbedding at h
  split at h
  · next steps features hdims =>
    cases hdims
    simp only [succeeds_bind, configured_eq_ok_iff] at h
    obtain ⟨_, hfeatures, maxLen, hmaxLen, _, hsteps, _⟩ := h
    obtain ⟨n, hn, hfeatures⟩ := expectConstraint_fill hfeatures
    refine ⟨(Shape.ofSizes [1, n]).sizes, Shape.sizes_ofSizes_pos (by simp [hn]), ?_⟩
    have hfill : Shape.fill ((Shape.ofSizes [1, n]).sizes) ⟨[steps, features]⟩ =
        ⟨[steps.fill 1, features.fill n]⟩ := rfl
    rw [hfill]
    simp only [positionalEmbedding, succeeds_bind, configured_eq_ok_iff]
    exact ⟨(), hfeatures, maxLen, hmaxLen, (), expectWithin_fill (hpos maxLen hmaxLen) hsteps,
      succeeds_ok _⟩
  · obtain ⟨out, h⟩ := h
    cases h

theorem fill_concat (size : Nat → UInt64) (front : List Dim) (d : Dim) :
    Shape.fill size ⟨front ++ [d]⟩ =
      ⟨(Shape.fill size ⟨front⟩).dims ++ [d.fill (size front.length)]⟩ :=
  congrArg Shape.mk List.mapIdx_concat

/-- The features are filled as the constraint asks and all dimensions before them with 1, the steps
included. -/
theorem positionalEncoding_fill (hpos : ∀ n, settings.word "max_len" = .ok n → 0 < n)
    (h : Succeeds (positionalEncoding settings x)) : Fills (positionalEncoding settings) x := by
  obtain ⟨dims⟩ := x
  simp only [positionalEncoding, succeeds_bind, trailing_eq_ok_iff] at h
  obtain ⟨last, hlast, _, hsize, h⟩ := h
  obtain ⟨n, hn, hsize⟩ := expectConstraint_fill hsize
  obtain ⟨front, rfl⟩ := List.getLast?_eq_some_iff.1 hlast
  refine ⟨fun i => if i = front.length then n else 1, fun i => ?_, ?_⟩
  · dsimp only
    split
    · exact hn
    · exact UInt64.zero_lt_one
  rw [fill_concat, if_pos rfl]
  simp only [positionalEncoding, succeeds_bind, trailing_eq_ok_iff]
  refine ⟨last.fill n, List.getLast?_concat, (), hsize, ?_⟩
  rcases List.eq_nil_or_concat' front with rfl | ⟨front, steps, rfl⟩
  · exact succeeds_ok _
  · rw [fill_concat, if_neg (by simp)]
    simp only [List.reverse_append, List.reverse_singleton, List.singleton_append, succeeds_bind,
      configured_eq_ok_iff] at h ⊢
    obtain ⟨maxLen, hmaxLen, _, hsteps, _⟩ := h
    exact ⟨maxLen, hmaxLen, (), expectWithin_fill (hpos maxLen hmaxLen) hsteps, succeeds_ok _⟩

end Rule

/-! ## Filling the inputs of a rule -/

namespace Inputs

variable {inputs : Inputs} {x : Shape}

/-- No dimension of any input is known to be 0. -/
def NoZero (inputs : Inputs) : Prop := ∀ arrival ∈ inputs.arrivals, arrival.2.NoZero

theorem NoZero.all (h : inputs.NoZero) {handle : String} : ∀ s ∈ inputs.all handle, s.NoZero := by
  intro s hs
  obtain ⟨arrival, harrival, rfl⟩ := List.mem_map.1 hs
  exact h arrival (List.mem_of_mem_filter harrival)

/-- Inputs can be filled such that a rule accepts them, with positive sizes under a condition. -/
def Fills (positive : Prop) (rule : Inputs → Outcome Shape) (inputs : Inputs) : Prop :=
  ∃ size : Nat → UInt64, (positive → ∀ i, 0 < size i) ∧ Succeeds (rule (inputs.fill size))

end Inputs

namespace Rule

variable {inputs : Inputs} {settings : Settings} {x : Shape} {positive : Prop}

/-- The first input of the filled inputs is the first input, filled. -/
theorem single_fill (h : single inputs = .ok x) (size : Nat → UInt64) :
    single (inputs.fill size) = .ok (x.fill size) := by
  rw [single, Inputs.first?_fill, first?_of_single h]
  rfl

/-- A rule for a single input leaves the other inputs alone. -/
theorem fills_single {rule : Shape → Outcome Shape} (hrule : ∀ x, Succeeds (rule x) → Fills rule x)
    (h : Succeeds (single inputs >>= rule)) :
    inputs.Fills positive fun inputs => single inputs >>= rule := by
  obtain ⟨x, hx, h⟩ := succeeds_bind.1 h
  obtain ⟨size, hpos, hfill⟩ := hrule x h
  exact ⟨size, fun _ => hpos, succeeds_bind.2 ⟨_, single_fill hx size, hfill⟩⟩

/-- The sizes that the inputs of a sum know between them fill all of its inputs. -/
theorem add_fill (h : Succeeds (add inputs)) : inputs.Fills inputs.NoZero add := by
  obtain ⟨out, hout⟩ := h
  rw [add_eq_ok_iff] at hout
  refine ⟨out.sizes, fun hno => Shape.sizes_pos (hout.noZero hno.all), ?_⟩
  have hfill : ∀ s ∈ (inputs.fill out.sizes).all Block.defaultInput,
      s.Admits (out.fill out.sizes) := by
    rw [Inputs.all_fill, List.forall_mem_map]
    intro s hs
    rw [(hout.admits hs).fill_eq fun i n => Shape.sizes_eq]
    exact Shape.admits_refl _
  have hne : (inputs.fill out.sizes).all Block.defaultInput ≠ [] := by
    rw [Inputs.all_fill]
    exact mt List.map_eq_nil_iff.1 hout.ne_nil
  obtain ⟨out', hout'⟩ := exists_joins hne hfill
  exact ⟨out', add_eq_ok_iff.2 hout'⟩

/-- Outside of the axis the inputs are filled like those of a sum, along the axis with any size. -/
theorem concat_fill (h : Succeeds (concat settings inputs)) :
    inputs.Fills inputs.NoZero (concat settings) := by
  obtain ⟨out, hout⟩ := h
  obtain ⟨wanted, axis, hwanted, haxis, hout⟩ := concat_eq_ok_iff.1 hout
  -- along the axis any sizes will do
  have hno : inputs.NoZero → (out.opened axis).NoZero := by
    intro hno
    exact hout.opened.noZero (List.forall_mem_map.2 fun s hs => (hno.all s hs).opened axis)
  refine ⟨(out.opened axis).sizes, fun h => Shape.sizes_pos (hno h), ?_⟩
  have hfill : ∀ s ∈ (inputs.fill (out.opened axis).sizes).all Block.defaultInput,
      (s.opened axis).Admits (((out.opened axis).fill (out.opened axis).sizes).opened axis) := by
    rw [Inputs.all_fill, List.forall_mem_map]
    intro s hs
    have hadmits := hout.opened.admits (List.mem_map_of_mem hs)
    rw [Shape.opened_fill, hadmits.fill_eq fun i n => Shape.sizes_eq]
    exact Shape.admits_refl _
  have hne : (inputs.fill (out.opened axis).sizes).all Block.defaultInput ≠ [] := by
    rw [Inputs.all_fill]
    exact mt List.map_eq_nil_iff.1 hout.ne_nil
  obtain ⟨out', hout'⟩ := exists_lays hne hfill
  refine ⟨out', concat_eq_ok_iff.2 ⟨wanted, axis, hwanted, ?_, hout'⟩⟩
  rw [Inputs.all_fill, List.forall_mem_map]
  intro s hs
  rw [Shape.axis?_eq_of_rank_eq (s.rank_fill _), haxis s hs]

theorem attentionInputs_fill (size : Nat → UInt64) (inputs : Inputs) :
    attentionInputs (inputs.fill size) =
      (attentionInputs inputs).map fun entry => (entry.1, entry.2.fill size) := by
  unfold attentionInputs
  rw [List.map_filterMap]
  refine List.filterMap_congr fun handle _ => ?_
  rw [Inputs.first?_fill, Option.map_map, Option.map_map]
  rfl

/-- The width that fits all inputs of attention is a size to fill them with. -/
theorem agreeOn_fill {fixed : Option UInt64} {connected : List (String × Shape)} {width : UInt64}
    (hfixed : ∀ w, fixed = some w → w = width)
    (hall : ∀ entry ∈ connected, ∃ d, entry.2.last? = some d ∧ d.Admits (.known width)) :
    agreeOn fixed (connected.map fun entry => (entry.1, entry.2.fill fun _ => width)) = .ok () := by
  refine agreeOn_eq_ok_iff.2 ⟨width, hfixed, List.forall_mem_map.2 fun entry hentry => ?_⟩
  obtain ⟨d, hd, hadmits⟩ := hall entry hentry
  refine ⟨d.fill width, ?_, ?_⟩
  · rw [Shape.last?_fill, hd, Option.map_some]
  · rcases hadmits with rfl | rfl
    · exact Dim.admits_refl _
    · exact Dim.admits_refl _

/-- Unless an input has a dimension of 0, the width is positive. -/
theorem exists_width {fixed : Option UInt64} {connected : List (String × Shape)}
    (hfixed : ∀ w, fixed = some w → 0 < w) (h : agreeOn fixed connected = .ok ()) :
    ∃ width : UInt64, ((∀ entry ∈ connected, entry.2.NoZero) → 0 < width) ∧
      agreeOn fixed (connected.map fun entry => (entry.1, entry.2.fill fun _ => width)) =
        .ok () := by
  obtain ⟨width, hwidth, hall⟩ := agreeOn_eq_ok_iff.1 h
  by_cases hzero : width = 0 ∧ ∀ entry ∈ connected, entry.2.NoZero
  · -- then nothing is known of the width, and any other one fits as well
    obtain ⟨rfl, hno⟩ := hzero
    refine ⟨1, fun _ => UInt64.zero_lt_one, agreeOn_fill (fun w hw => ?_) fun entry hentry => ?_⟩
    · have hpos := hfixed w hw
      rw [hwidth w hw] at hpos
      exact absurd hpos (by decide)
    · obtain ⟨d, hd, hadmits⟩ := hall entry hentry
      rcases hadmits with rfl | rfl
      · exact ⟨.unknown, hd, Dim.unknown_admits _⟩
      · exact absurd (List.mem_of_getLast? hd) (hno entry hentry)
  · refine ⟨width, fun hno => ?_, agreeOn_fill hwidth hall⟩
    exact UInt64.pos_iff_ne_zero.2 fun hw => hzero ⟨hw, hno⟩

/-- The one width that the inputs agree on fills their trailing dimensions. -/
theorem attention_fill (h : Succeeds (attention settings inputs)) :
    inputs.Fills inputs.NoZero (attention settings) := by
  obtain ⟨embedDim, hembedDim, h⟩ := succeeds_bind.1 h
  obtain ⟨heads, hheads, h⟩ := succeeds_bind.1 h
  have hno : inputs.NoZero → ∀ entry ∈ attentionInputs inputs, entry.2.NoZero := by
    intro hno entry hentry
    exact hno.all _ (List.mem_of_head? (first?_of_mem_attentionInputs hentry))
  have hagrees : ∀ fixed, (∀ w, fixed = some w → 0 < w) →
      agreeOn fixed (attentionInputs inputs) = .ok () →
        ∃ size : Nat → UInt64, (inputs.NoZero → ∀ i, 0 < size i) ∧
          agreeOn fixed (attentionInputs (inputs.fill size)) = .ok () := by
    intro fixed hfixed hagree
    obtain ⟨width, hpos, hagree⟩ := exists_width hfixed hagree
    rw [← attentionInputs_fill] at hagree
    exact ⟨fun _ => width, fun h _ => hpos (hno h), hagree⟩
  cases embedDim with
  | none =>
    obtain ⟨_, hagree, -⟩ := succeeds_bind.1 h
    obtain ⟨size, hpos, hagree⟩ := hagrees none (by simp) hagree
    refine ⟨size, hpos, succeeds_bind.2 ⟨none, hembedDim, succeeds_bind.2 ⟨heads, hheads, ?_⟩⟩⟩
    exact succeeds_bind.2 ⟨(), hagree, succeeds_ok _⟩
  | some dim =>
    dsimp only at h
    split at h
    · obtain ⟨out, h⟩ := h
      cases h
    · next hdivides =>
      obtain ⟨_, hagree, -⟩ := succeeds_bind.1 h
      have hdim : 0 < dim := Settings.constraint_pos (configured_eq_ok_iff.1 hembedDim)
      obtain ⟨size, hpos, hagree⟩ := hagrees (some dim) (by simpa using hdim) hagree
      refine ⟨size, hpos, succeeds_bind.2 ⟨_, hembedDim, succeeds_bind.2 ⟨heads, hheads, ?_⟩⟩⟩
      dsimp only
      rw [if_neg hdivides]
      exact succeeds_bind.2 ⟨(), hagree, succeeds_ok _⟩

theorem fills_of_ok {rule : Inputs → Outcome Shape}
    (h : ∀ size, Succeeds (rule (inputs.fill size))) : inputs.Fills positive rule :=
  ⟨fun _ => 1, fun _ _ => UInt64.zero_lt_one, h _⟩

end Rule

namespace Block

/-- Whether several inputs are held against each other. -/
def comparesInputs : Block → Bool
  | attention | add | concat => true
  | _ => false

/-- The condition for positive sizes: inputs that are compared have no dimension of 0. -/
def Positive (block : Block) (inputs : Inputs) : Prop :=
  block.comparesInputs = true → inputs.NoZero

/-- **What a rule accepts can be filled** such that the rule accepts it. -/
theorem rule_fill (block : Block) (params : Params) {inputs : Inputs}
    (h : Succeeds (block.rule params inputs)) :
    inputs.Fills (block.Positive inputs) (block.rule params) := by
  have hsingle : Succeeds (Rule.single inputs) →
      inputs.Fills (block.Positive inputs) Rule.single := by
    rintro ⟨x, hx⟩
    exact Rule.fills_of_ok fun size => ⟨_, Rule.single_fill hx size⟩
  have hcompared : ∀ {rule}, block.comparesInputs = true → inputs.Fills inputs.NoZero rule →
      inputs.Fills (block.Positive inputs) rule := by
    rintro rule hcompares ⟨size, hpos, hfill⟩
    exact ⟨size, fun hno => hpos (hno hcompares), hfill⟩
  cases block with
  | input => exact Rule.fills_of_ok fun _ => h
  | textInput => exact Rule.fills_of_ok fun _ => h
  | linear =>
    have hpos : ∀ n, (linear.settings params).word "in_features" = .ok n → 0 < n :=
      fun _ => Settings.word_pos rfl
    exact Rule.fills_single (fun _ => Rule.linear_fill hpos) h
  | conv2D => exact Rule.fills_single (fun _ => Rule.conv2D_fill) h
  | lstm => exact Rule.fills_single (fun _ => Rule.lstm_fill) h
  | attention => exact hcompared rfl (Rule.attention_fill h)
  | layerNorm => exact Rule.fills_single (fun _ => Rule.layerNorm_fill) h
  | batchNorm => exact Rule.fills_single (fun _ => Rule.batchNorm_fill) h
  | softmax => exact Rule.fills_single (fun _ => Rule.softmax_fill) h
  | activation => exact hsingle h
  | dropout => exact hsingle h
  | output => exact hsingle h
  | flatten =>
    obtain ⟨out, h⟩ := h
    cases hx : Rule.single inputs with
    | error f =>
      simp only [rule, hx] at h
      cases h
    | ok x =>
      refine Rule.fills_of_ok fun size => ⟨Rule.flatten (x.fill size), ?_⟩
      simp only [rule, Rule.single_fill hx size]
      rfl
  | embedding => exact Rule.fills_single (fun _ => Rule.embedding_fill) h
  | textEmbedding => exact Rule.fills_single (fun _ => Rule.embedding_fill) h
  | add => exact hcompared rfl (Rule.add_fill h)
  | concat => exact hcompared rfl (Rule.concat_fill h)
  | positionalEncoding =>
    have hpos : ∀ n, (positionalEncoding.settings params).word "max_len" = .ok n → 0 < n :=
      fun _ => Settings.word_pos rfl
    exact Rule.fills_single (fun _ => Rule.positionalEncoding_fill hpos) h
  | positionalEmbedding =>
    have hpos : ∀ n, (positionalEmbedding.settings params).word "max_len" = .ok n → 0 < n :=
      fun _ => Settings.word_pos rfl
    exact Rule.fills_single (fun _ => Rule.positionalEmbedding_fill hpos) h
  | board => exact Rule.fills_of_ok fun _ => succeeds_ok _

end Block

end ShapeFlow
