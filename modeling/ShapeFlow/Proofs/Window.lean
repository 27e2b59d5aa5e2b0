import ShapeFlow.Proofs.Precedence
import Mathlib.Data.Rat.Floor
import Mathlib.Data.Set.Card

/-!
# Windows of a convolution

* `Rule.windowPositions`: where a window may stand in a padded extent.
* `Rule.encard_windowPositions`: the count of a convolution is the number of these positions.
* `Rule.wideWindowCount?_eq`: no step on the way to the count leaves a signed word of 128 bits.
* `Block.convolutions_count_windows`: **a convolution has as many outputs as its window has
  positions**, in height and in width.
-/

namespace ShapeFlow

namespace Settings

variable {settings : Settings} {key : String} {default : Double} {sizes : UInt64 × UInt64}

/-- A pair whose numbers are from one on is a pair of positive words. -/
theorem pair_pos (hspec : settings.schema.find? (·.key == key) = some (.extent key 1 default))
    (h : settings.pair key = .ok sizes) : 0 < sizes.1 ∧ 0 < sizes.2 := by
  obtain ⟨value, hvalue, hsizes⟩ := bind_eq_ok_iff.1 h
  have hfits := Param.Spec.check_eq_ok_iff.1 ((value_eq_ok_iff hspec).1 hvalue).1
  have hpos : ∀ {x : Double}, (Param.Bounds.mk (some 1) none).wholeObjection? x = none →
      0 < x.toWord := by
    intro x hx
    exact Double.toWord_pos (Param.Bounds.le_of_wholeObjection? rfl Double.isNaN_one hx)
  obtain ⟨x, rfl, hx⟩ | ⟨x, y, rfl, hx, hy⟩ := Param.Kind.eq_numbers_of_extent hfits
  · cases hsizes
    exact ⟨hpos hx, hpos hx⟩
  · cases hsizes
    exact ⟨hpos hx, hpos hy⟩

end Settings

/-- A handle with a first shape is connected. -/
theorem Inputs.isConnected_of_first? {inputs : Inputs} {handle : String} {x : Shape}
    (h : inputs.first? handle = some x) : inputs.isConnected handle = true := by
  obtain ⟨rest, hall⟩ := List.head?_eq_some_iff.1 h
  simp [isConnected, hall]

/-- A shape at its only input leaves a block to its rule. -/
theorem Block.outputShape_of_first? {block : Block} {params : Params} {inputs : Inputs} {x : Shape}
    {merges : Bool} (hblock : block.inputs = [⟨defaultInput, merges⟩])
    (hconforms : Param.Conforms block.schema params)
    (hfirst : inputs.first? defaultInput = some x) :
    block.outputShape params inputs = block.rule params inputs := by
  refine outputShape_eq_rule (Param.conforms_iff.1 hconforms) ?_
  rw [hblock]
  exact List.forall_mem_singleton.2 (Inputs.isConnected_of_first? hfirst)

namespace Rule

variable {n kernel stride padding : UInt64} {axis : String} {f : Failure} {i : ℕ}

/-! ## Counting positions -/

/-- The window fits into the padded extent. -/
def WindowFits (n kernel padding : UInt64) : Prop := kernel.toNat ≤ n.toNat + 2 * padding.toNat

/-- Where a window that moves by its stride may stand in a padded extent. -/
def windowPositions (n kernel stride padding : UInt64) : Set ℕ :=
  {i | i * stride.toNat + kernel.toNat ≤ n.toNat + 2 * padding.toNat}

/-- The count of a convolution as it is written, with the quotient rounded down. -/
def flooredCount (n kernel stride padding : UInt64) : ℤ :=
  ⌊(((n.toNat + 2 * padding.toNat - kernel.toNat : ℤ) : ℚ) / stride.toNat)⌋ + 1

theorem windowCount_of_pos (hstride : 0 < stride) : windowCount n kernel stride padding =
    (n.toNat + 2 * padding.toNat - kernel.toNat : ℤ) / stride.toNat + 1 := by
  rw [windowCount, max_one_of_pos hstride]

theorem windowCount_eq_flooredCount (hstride : 0 < stride) :
    windowCount n kernel stride padding = flooredCount n kernel stride padding := by
  rw [windowCount_of_pos hstride, flooredCount, Rat.floor_intCast_div_natCast]

/-- A position is one iff it is below the count: adding one turns the last position into the number
of them, also where the stride divides what the window leaves free. -/
theorem mem_windowPositions_iff (hstride : 0 < stride) :
    i ∈ windowPositions n kernel stride padding ↔
      (i : ℤ) < windowCount n kernel stride padding := by
  have hpos : (0 : ℤ) < stride.toNat := by exact_mod_cast UInt64.lt_iff_toNat_lt.1 hstride
  rw [windowCount_of_pos hstride, Int.lt_add_one_iff, Int.le_ediv_iff_mul_le hpos]
  change i * stride.toNat + kernel.toNat ≤ n.toNat + 2 * padding.toNat ↔ _
  zify
  constructor
  · intro h
    linarith
  · intro h
    linarith

theorem windowPositions_eq_range (hstride : 0 < stride) :
    windowPositions n kernel stride padding =
      Finset.range (windowCount n kernel stride padding).toNat := by
  ext i
  rw [mem_windowPositions_iff hstride, Finset.coe_range, Set.mem_Iio, Int.lt_toNat]

/-- **The count is the number of positions.** -/
theorem encard_windowPositions (hstride : 0 < stride) :
    (windowPositions n kernel stride padding).encard =
      (windowCount n kernel stride padding).toNat := by
  rw [windowPositions_eq_range hstride, Set.encard_coe_eq_coe_finsetCard, Finset.card_range]

theorem windowCount_pos_iff (hstride : 0 < stride) :
    0 < windowCount n kernel stride padding ↔ WindowFits n kernel padding := by
  have hzero : (0 : ℕ) ∈ windowPositions n kernel stride padding ↔ _ :=
    mem_windowPositions_iff hstride
  rw [Nat.cast_zero] at hzero
  rw [← hzero]
  simp [windowPositions, WindowFits]

/-! ## Range of the computation -/

/-- A number, if it is a signed word of 128 bits. -/
def wide? (x : ℤ) : Option ℤ := if -2 ^ 127 ≤ x ∧ x < 2 ^ 127 then some x else none

/-- The count computed step by step in signed words of 128 bits. -/
def wideWindowCount? (n kernel stride padding : UInt64) : Option ℤ := do
  let doubled ← wide? (2 * padding.toNat)
  let padded ← wide? (n.toNat + doubled)
  let span ← wide? (padded - kernel.toNat)
  let steps ← wide? (span / (max stride 1).toNat)
  wide? (steps + 1)

theorem wide?_of_bounds {x : ℤ} (hlower : -2 ^ 127 ≤ x) (hupper : x < 2 ^ 127) :
    wide? x = some x := if_pos ⟨hlower, hupper⟩

/-- A quotient is between the bounds of what is divided, when these are on both sides of zero. -/
theorem ediv_bounds {span lower upper divisor : ℤ} (hdivisor : 0 < divisor) (hlower : lower ≤ span)
    (hupper : span < upper) (hneg : lower ≤ 0) (hpos : 0 ≤ upper) :
    lower ≤ span / divisor ∧ span / divisor < upper := by
  rw [Int.le_ediv_iff_mul_le hdivisor, Int.ediv_lt_iff_lt_mul hdivisor]
  constructor
  · exact le_trans (by nlinarith) hlower
  · exact lt_of_lt_of_le hupper (by nlinarith)

/-- **No step leaves its range.** -/
theorem wideWindowCount?_eq (hstride : 0 < stride) : wideWindowCount? n kernel stride padding =
    some (windowCount n kernel stride padding) := by
  have hn : n.toNat < 2 ^ 64 := n.toNat_lt
  have hkernel : kernel.toNat < 2 ^ 64 := kernel.toNat_lt
  have hpadding : padding.toNat < 2 ^ 64 := padding.toNat_lt
  have hdivisor : (0 : ℤ) < stride.toNat := by exact_mod_cast UInt64.lt_iff_toNat_lt.1 hstride
  have hspan : -2 ^ 64 ≤ (n.toNat + 2 * padding.toNat - kernel.toNat : ℤ) ∧
      (n.toNat + 2 * padding.toNat - kernel.toNat : ℤ) < 2 ^ 66 := by omega
  obtain ⟨hlower, hupper⟩ := ediv_bounds hdivisor hspan.1 hspan.2 (by omega) (by omega)
  rw [windowCount_of_pos hstride, wideWindowCount?, max_one_of_pos hstride]
  rw [wide?_of_bounds (by omega) (by omega), Option.bind_eq_bind, Option.bind_some]
  rw [wide?_of_bounds (by omega) (by omega), Option.bind_some]
  rw [wide?_of_bounds (by omega) (by omega), Option.bind_some]
  rw [wide?_of_bounds (by omega) (by omega), Option.bind_some]
  exact wide?_of_bounds (by omega) (by omega)

/-! ## The extent behind a convolution -/

theorem convExtent_of_fits (hstride : 0 < stride) (hfits : WindowFits n kernel padding) :
    convExtent axis (.known n) kernel stride padding =
      .ok ((Dim.ofNat? (windowCount n kernel stride padding).toNat).getD .unknown) := by
  have hpos := (windowCount_pos_iff hstride).2 hfits
  exact if_neg (not_le.2 hpos)

theorem convExtent_of_not_fits (hstride : 0 < stride) (hfits : ¬ WindowFits n kernel padding) :
    convExtent axis (.known n) kernel stride padding =
      .error (.atHandle Block.defaultInput (.invalidSpatialReduction axis
        (max (windowCount n kernel stride padding) (-2 ^ 63)))) := by
  have hle := not_lt.1 (mt (windowCount_pos_iff hstride).1 hfits)
  exact if_pos hle

/-- **What an extent becomes**: the number of positions, if it is a word. -/
theorem convExtent_eq_known_iff (hstride : 0 < stride) {size : UInt64} :
    convExtent axis (.known n) kernel stride padding = .ok (.known size) ↔
      WindowFits n kernel padding ∧
        (windowPositions n kernel stride padding).encard = size.toNat := by
  rw [encard_windowPositions hstride, Nat.cast_inj]
  by_cases hfits : WindowFits n kernel padding
  · rw [convExtent_of_fits hstride hfits, and_iff_right hfits, Except.ok.injEq]
    cases hcount : Dim.ofNat? (windowCount n kernel stride padding).toNat with
    | none =>
      have hle := (Dim.ofNat?_eq_none_iff _).1 hcount
      have hlt : size.toNat < UInt64.size := size.toNat_lt
      rw [Option.getD_none]
      refine iff_of_false nofun ?_
      omega
    | some d =>
      obtain ⟨m, hm, rfl⟩ := (Dim.ofNat?_eq_some_iff _ _).1 hcount
      rw [Option.getD_some, Dim.known.injEq, ← hm, UInt64.toNat_inj]
  · rw [convExtent_of_not_fits hstride hfits]
    exact iff_of_false nofun fun h => hfits h.1

/-- **When an extent is lost**: there are more positions than words. -/
theorem convExtent_eq_unknown_iff (hstride : 0 < stride) :
    convExtent axis (.known n) kernel stride padding = .ok .unknown ↔
      2 ^ 64 ≤ (windowPositions n kernel stride padding).encard := by
  have hcast : ((2 ^ 64 : ℕ) : ℕ∞) = 2 ^ 64 := by norm_cast
  rw [encard_windowPositions hstride, ← hcast, Nat.cast_le]
  by_cases hfits : WindowFits n kernel padding
  · rw [convExtent_of_fits hstride hfits, Except.ok.injEq]
    have hlost := Dim.ofNat?_eq_none_iff (windowCount n kernel stride padding).toNat
    cases hcount : Dim.ofNat? (windowCount n kernel stride padding).toNat with
    | none => exact iff_of_true rfl (hlost.1 hcount)
    | some d =>
      obtain ⟨m, -, rfl⟩ := (Dim.ofNat?_eq_some_iff _ _).1 hcount
      refine iff_of_false nofun fun hle => ?_
      rw [hlost.2 hle] at hcount
      cases hcount
  · rw [convExtent_of_not_fits hstride hfits]
    refine iff_of_false nofun ?_
    have hle := not_lt.1 (mt (windowCount_pos_iff hstride).1 hfits)
    omega

/-- **When an extent is refused**: the window does not fit, and the count is reported. -/
theorem convExtent_eq_error_iff (hstride : 0 < stride) :
    convExtent axis (.known n) kernel stride padding = .error f ↔ ¬ WindowFits n kernel padding ∧
      f = .atHandle Block.defaultInput (.invalidSpatialReduction axis
        (max (flooredCount n kernel stride padding) (-2 ^ 63))) := by
  rw [← windowCount_eq_flooredCount hstride]
  by_cases hfits : WindowFits n kernel padding
  · rw [convExtent_of_fits hstride hfits]
    exact iff_of_false nofun fun h => h.1 hfits
  · rw [convExtent_of_not_fits hstride hfits, and_iff_right hfits, Except.error.injEq, eq_comm]

theorem convExtent_isOk_iff (hstride : 0 < stride) :
    (∃ d, convExtent axis (.known n) kernel stride padding = .ok d) ↔
      WindowFits n kernel padding := by
  by_cases hfits : WindowFits n kernel padding
  · exact iff_of_true ⟨_, convExtent_of_fits hstride hfits⟩ hfits
  · refine iff_of_false ?_ hfits
    rw [convExtent_of_not_fits hstride hfits]
    rintro ⟨d, hd⟩
    cases hd

/-- Channels that are as configured leave height and width to be judged, in this order. -/
theorem conv2D_eq {settings : Settings} {channels height width : Dim} {out : UInt64}
    {kernel stride padding : UInt64 × UInt64} (hout : settings.word "out_channels" = .ok out)
    (hkernel : settings.pair "kernel_size" = .ok kernel)
    (hstride : settings.pair "stride" = .ok stride)
    (hpadding : settings.pair "padding" = .ok padding) :
    conv2D settings ⟨[channels, height, width]⟩ = (do
      expectConstraint settings "in_channels" channels
      let height ← convExtent "height" height kernel.1 stride.1 padding.1
      let width ← convExtent "width" width kernel.2 stride.2 padding.2
      return ⟨[.known out, height, width]⟩) := by
  simp only [conv2D, hout, hkernel, hstride, hpadding, configured_ok, ok_bind]

end Rule

namespace Block

/-- **A convolution has as many outputs as its window has positions.** A window fits iff it is not
longer than the padded extent. Then the extent becomes the number of positions, or is unknown when
this is no word; otherwise the count, which is not positive, is reported, cut to a signed word. The
count is reached within 128 bits. With parameters that conform to the schema, the two strides are
positive, and the block judges channels, height and width in this order, the height by the first
numbers of its pairs and the width by the second ones. -/
theorem convolutions_count_windows :
    (∀ (axis : String) (n kernel stride padding : UInt64), 0 < stride →
      ((∃ d, Rule.convExtent axis (.known n) kernel stride padding = .ok d) ↔
        Rule.WindowFits n kernel padding) ∧
      (∀ size : UInt64, Rule.convExtent axis (.known n) kernel stride padding = .ok (.known size) ↔
        Rule.WindowFits n kernel padding ∧
          (Rule.windowPositions n kernel stride padding).encard = size.toNat) ∧
      (Rule.convExtent axis (.known n) kernel stride padding = .ok .unknown ↔
        2 ^ 64 ≤ (Rule.windowPositions n kernel stride padding).encard) ∧
      (∀ f, Rule.convExtent axis (.known n) kernel stride padding = .error f ↔
        ¬ Rule.WindowFits n kernel padding ∧
          f = .atHandle defaultInput (.invalidSpatialReduction axis
            (max (Rule.flooredCount n kernel stride padding) (-2 ^ 63)))) ∧
      (Rule.WindowFits n kernel padding ↔ 0 < Rule.flooredCount n kernel stride padding) ∧
      Rule.wideWindowCount? n kernel stride padding =
        some (Rule.windowCount n kernel stride padding) ∧
      Rule.windowCount n kernel stride padding = Rule.flooredCount n kernel stride padding) ∧
    (∀ axis kernel stride padding,
      Rule.convExtent axis .unknown kernel stride padding = .ok .unknown) ∧
    ∀ params inputs channels height width, Param.Conforms conv2D.schema params →
      inputs.first? defaultInput = some ⟨[channels, height, width]⟩ →
      ∃ out kernel stride padding,
        (conv2D.settings params).word "out_channels" = .ok out ∧
        (conv2D.settings params).pair "kernel_size" = .ok kernel ∧
        (conv2D.settings params).pair "stride" = .ok stride ∧
        (conv2D.settings params).pair "padding" = .ok padding ∧
        0 < stride.1 ∧ 0 < stride.2 ∧
        (∀ f, Rule.expectConstraint (conv2D.settings params) "in_channels" channels = .error f →
          conv2D.outputShape params inputs = .error f) ∧
        (Rule.expectConstraint (conv2D.settings params) "in_channels" channels = .ok () →
          (∀ f, Rule.convExtent "height" height kernel.1 stride.1 padding.1 = .error f →
            conv2D.outputShape params inputs = .error f) ∧
          ∀ rows, Rule.convExtent "height" height kernel.1 stride.1 padding.1 = .ok rows →
            (∀ f, Rule.convExtent "width" width kernel.2 stride.2 padding.2 = .error f →
              conv2D.outputShape params inputs = .error f) ∧
            ∀ columns, Rule.convExtent "width" width kernel.2 stride.2 padding.2 = .ok columns →
              conv2D.outputShape params inputs = .ok ⟨[.known out, rows, columns]⟩) := by
  refine ⟨fun axis n kernel stride padding hstride => ?_, fun _ _ _ _ => rfl, ?_⟩
  · refine ⟨Rule.convExtent_isOk_iff hstride, fun size => Rule.convExtent_eq_known_iff hstride,
      Rule.convExtent_eq_unknown_iff hstride, fun f => Rule.convExtent_eq_error_iff hstride, ?_,
      Rule.wideWindowCount?_eq hstride, Rule.windowCount_eq_flooredCount hstride⟩
    rw [← Rule.windowCount_eq_flooredCount hstride, Rule.windowCount_pos_iff hstride]
  · intro params inputs channels height width hconforms hfirst
    have hreadings := readings_succeed hconforms
    obtain ⟨out, hout⟩ : (Reading.word "out_channels").Succeeds _ := hreadings _ (by decide)
    obtain ⟨kernel, hkernel⟩ : (Reading.pair "kernel_size").Succeeds _ := hreadings _ (by decide)
    obtain ⟨stride, hstride⟩ : (Reading.pair "stride").Succeeds _ := hreadings _ (by decide)
    obtain ⟨padding, hpadding⟩ : (Reading.pair "padding").Succeeds _ := hreadings _ (by decide)
    obtain ⟨hrows, hcolumns⟩ := Settings.pair_pos rfl hstride
    have hconnected : ∀ handle ∈ conv2D.inputs, inputs.isConnected handle.name = true :=
      List.forall_mem_singleton.2 (Inputs.isConnected_of_first? hfirst)
    have hrule : conv2D.rule params inputs =
        Rule.conv2D (conv2D.settings params) ⟨[channels, height, width]⟩ := by
      rw [rule, Rule.single, hfirst, ok_bind]
    have houtput := outputShape_eq_rule (Param.conforms_iff.1 hconforms) hconnected
    rw [houtput, hrule, Rule.conv2D_eq hout hkernel hstride hpadding]
    refine ⟨out, kernel, stride, padding, hout, hkernel, hstride, hpadding, hrows, hcolumns, ?_, ?_⟩
    · intro f hchannels
      rw [hchannels]
      rfl
    · intro hchannels
      rw [hchannels, ok_bind]
      refine ⟨fun f hheight => ?_,
        fun rows hheight => ⟨fun f hwidth => ?_, fun columns hwidth => ?_⟩⟩
      · rw [hheight]
        rfl
      · rw [hheight, ok_bind, hwidth]
        rfl
      · rw [hheight, ok_bind, hwidth]
        rfl

/-- A window of 3 rows and 5 columns that moves by 2 rows, with one row of padding. -/
def oblong : Params :=
  Table.ofList [("kernel_size", .numbers [3, 5]), ("stride", .numbers [2, 1]),
    ("padding", .numbers [1, 0])]

/-- A window of 3 that moves by 2 has 3 positions in an extent of 7, which it leaves by a multiple
of its stride. The longest extent with the widest padding has more positions than words. The longest
window in an empty extent is reported with the least signed word. The oblong window has 4 positions
in 7 rows, by the first numbers of its pairs, and 5 in 9 columns, by the second ones; in 4 columns it
has none. -/
theorem convolutions_count_windows_extreme :
    (Rule.windowPositions 7 3 2 0).encard = 3 ∧
    2 ^ 64 ≤ (Rule.windowPositions 0xFFFFFFFFFFFFFFFF 1 1 0xFFFFFFFFFFFFFFFF).encard ∧
    ¬ Rule.WindowFits 0 0xFFFFFFFFFFFFFFFF 0 ∧
    Rule.convExtent "width" (.known 0) 0xFFFFFFFFFFFFFFFF 1 0 =
      .error (.atHandle "in" (.invalidSpatialReduction "width" (-0x8000000000000000))) ∧
    conv2D.outputShape oblong (.entering [⟨[.known 3, .known 7, .known 9]⟩]) =
      .ok ⟨[.known 32, .known 4, .known 5]⟩ ∧
    conv2D.outputShape oblong (.entering [⟨[.known 3, .known 7, .known 4]⟩]) =
      .error (.atHandle "in" (.invalidSpatialReduction "width" 0)) := by
  obtain ⟨hextents, -, hblock⟩ := convolutions_count_windows
  obtain ⟨-, hcount, -⟩ := hextents "height" 7 3 2 0 (by decide)
  obtain ⟨-, -, hlost, -⟩ := hextents "height" 0xFFFFFFFFFFFFFFFF 1 1 0xFFFFFFFFFFFFFFFF (by decide)
  obtain ⟨-, -, -, hrefused, -⟩ := hextents "width" 0 0xFFFFFFFFFFFFFFFF 1 0 (by decide)
  have herror : Rule.convExtent "width" (.known 0) 0xFFFFFFFFFFFFFFFF 1 0 =
      .error (.atHandle "in" (.invalidSpatialReduction "width" (-0x8000000000000000))) := by
    decide +kernel
  have hconforms : Param.Conforms conv2D.schema oblong :=
    Param.conforms_iff.2 (by decide +kernel)
  -- both runs read the same numbers, and differ in the columns only
  have hrun : ∀ n : UInt64,
      let inputs := Inputs.entering [⟨[.known 3, .known 7, .known n]⟩]
      (∀ f, Rule.convExtent "width" (.known n) 5 1 0 = .error f →
        conv2D.outputShape oblong inputs = .error f) ∧
      ∀ columns, Rule.convExtent "width" (.known n) 5 1 0 = .ok columns →
        conv2D.outputShape oblong inputs = .ok ⟨[.known 32, .known 4, columns]⟩ := by
    intro n inputs
    obtain ⟨out, kernel, stride, padding, hout, hkernel, hstride, hpadding, -, -, -, hall⟩ :=
      hblock oblong inputs (.known 3) (.known 7) (.known n) hconforms rfl
    have hnumbers : (conv2D.settings oblong).word "out_channels" = .ok 32 ∧
        (conv2D.settings oblong).pair "kernel_size" = .ok (3, 5) ∧
        (conv2D.settings oblong).pair "stride" = .ok (2, 1) ∧
        (conv2D.settings oblong).pair "padding" = .ok (1, 0) := by decide +kernel
    rw [hout, hkernel, hstride, hpadding] at hnumbers
    obtain ⟨⟨⟩, ⟨⟩, ⟨⟩, ⟨⟩⟩ := hnumbers
    exact (hall (by decide +kernel)).2 (.known 4) (by decide +kernel)
  exact ⟨((hcount 3).1 (by decide +kernel)).2, hlost.1 (by decide +kernel),
    ((hrefused _).1 herror).1, herror, (hrun 9).2 (.known 5) (by decide +kernel),
    (hrun 4).1 _ (by decide +kernel)⟩

end Block

end ShapeFlow
