import ShapeFlow.Json.Numeral
import ShapeFlow.Proofs.Outcome
import Mathlib.Algebra.Group.Nat.Defs
import Mathlib.Data.Nat.Basic
import Mathlib.Order.Basic

/-!
# Numbers that are read are finite

Every magnitude is bounded by a power of two in units. A quotient by one or more does not grow by
more than its rounding, so neither of the two quotients of a stepwise reading can reach infinity.

* `Double.units_ofUnitQuotient_le`: rounding stays within a power of two.
* `Double.isFinite_ofInt`: **an integer of a word's range is finite as a double.**
* `Json.Numeral.holds_of_value?`: **the value of a numeral** is an integer of a word's range or a
  finite double.
-/

namespace ShapeFlow

namespace Double

variable {num den k r : Nat} {x y : Double}

/-! ### Bounds of rounding -/

theorem roundHalfEven_le (num den : Nat) : roundHalfEven num den ≤ num / den + 1 := by
  unfold roundHalfEven
  dsimp only
  split <;> omega

theorem le_roundHalfEven (num den : Nat) : num / den ≤ roundHalfEven num den := by
  unfold roundHalfEven
  dsimp only
  split <;> omega

/-- The leading binary digits of a quotient, the others cut off. -/
theorem div_shiftLeft (num den shift : Nat) : num / (den <<< shift) = num / den / 2 ^ shift := by
  rw [Nat.shiftLeft_eq, Nat.div_div_eq_div_mul]

/-- A quotient below a power of two is rounded to this power at most. -/
theorem nearestRank_le (hk : 53 ≤ k) (h : num / den < 2 ^ k) :
    nearestRank num den ≤ (k - 51) * stepSize := by
  have hlog : Nat.log2 (num / den) < k := by
    by_cases h0 : num / den = 0
    · rw [h0, Nat.log2_zero]
      omega
    · exact (Nat.log2_lt h0).2 h
  unfold nearestRank
  dsimp only
  generalize hshift : Nat.log2 (num / den) - 52 = shift
  -- 53 digits are left at most, and the rounding carries one more
  have hsize : 2 * stepSize = 2 ^ 53 := by decide
  have hdigits : num / den / 2 ^ shift < 2 * stepSize := by
    rw [hsize, Nat.div_lt_iff_lt_mul (Nat.two_pow_pos _), ← Nat.pow_add]
    refine Nat.lt_of_lt_of_le Nat.lt_log2_self (Nat.pow_le_pow_right (by decide) ?_)
    omega
  have hround := roundHalfEven_le num (den <<< shift)
  rw [div_shiftLeft] at hround
  calc min infinityRank (shift * stepSize + roundHalfEven num (den <<< shift))
      ≤ shift * stepSize + roundHalfEven num (den <<< shift) := Nat.min_le_right ..
    _ ≤ shift * stepSize + 2 * stepSize := Nat.add_le_add_left (hround.trans hdigits) _
    _ = (shift + 2) * stepSize := (Nat.add_mul ..).symm
    _ ≤ (k - 51) * stepSize := Nat.mul_le_mul_right _ (by omega)

/-- A quotient from a power of two on is not rounded below it. -/
theorem le_nearestRank (hk : 52 ≤ k) (hfits : (k - 51) * stepSize ≤ infinityRank)
    (h : 2 ^ k ≤ num / den) : (k - 51) * stepSize ≤ nearestRank num den := by
  have hpos : num / den ≠ 0 := by
    have := Nat.two_pow_pos k
    omega
  have hlog : k ≤ Nat.log2 (num / den) := (Nat.le_log2 hpos).2 h
  unfold nearestRank
  dsimp only
  generalize hshift : Nat.log2 (num / den) - 52 = shift
  -- the leading digit alone makes a whole step
  have hsize : stepSize = 2 ^ 52 := by decide
  have hdigits : stepSize ≤ num / den / 2 ^ shift := by
    rw [hsize, Nat.le_div_iff_mul_le (Nat.two_pow_pos _), ← Nat.pow_add]
    refine Nat.le_trans (Nat.pow_le_pow_right (by decide) ?_) (Nat.log2_self_le hpos)
    omega
  have hround := le_roundHalfEven num (den <<< shift)
  rw [div_shiftLeft] at hround
  refine Nat.le_min.2 ⟨hfits, ?_⟩
  calc (k - 51) * stepSize ≤ (shift + 1) * stepSize := Nat.mul_le_mul_right _ (by omega)
    _ = shift * stepSize + stepSize := Nat.succ_mul ..
    _ ≤ shift * stepSize + roundHalfEven num (den <<< shift) :=
      Nat.add_le_add_left (hdigits.trans hround) _

/-! ### Bounds of magnitudes -/

/-- The magnitude at the beginning of a step is a power of two. -/
theorem unitsOfRank_stepStart (hk : 52 ≤ k) : unitsOfRank ((k - 51) * stepSize) = 2 ^ k := by
  have hstart := unitsOfRank_step (k - 52) (by decide : 0 < stepSize)
  have hstep : k - 52 + 1 = k - 51 := by omega
  have hsize : stepSize = 2 ^ 52 := by decide
  rw [hstep, Nat.add_zero, Nat.add_zero, Nat.shiftLeft_eq, hsize, ← Nat.pow_add,
    Nat.add_sub_cancel' hk] at hstart
  rw [hsize]
  exact hstart

theorem unitsOfRank_mono {r s : Nat} (h : r ≤ s) : unitsOfRank r ≤ unitsOfRank s := by
  rcases Nat.lt_or_eq_of_le h with hlt | rfl
  · exact Nat.le_of_lt (unitsOfRank_strictMono hlt)
  · exact Nat.le_refl _

theorem units_ofUnitQuotient_le {negative : Bool} (hk : 53 ≤ k) (h : num / den < 2 ^ k) :
    (ofUnitQuotient negative num den).units ≤ 2 ^ k := by
  rw [← unitsOfRank_stepStart (by omega : 52 ≤ k)]
  exact unitsOfRank_mono (nearestRank_le hk h)

/-- Infinity stands at `2 ^ 1024`, which is `2 ^ 2098` units. -/
theorem isFinite_of_units_le (hk : k < 2098) (h : x.units ≤ 2 ^ k) : x.isFinite := by
  have hinfinite : unitsOfRank infinityRank = 2 ^ 2098 :=
    unitsOfRank_stepStart (k := 2098) (by decide)
  by_contra hx
  have hrank : infinityRank ≤ x.rank := by
    rw [isFinite, decide_eq_true_eq] at hx
    exact Nat.le_of_not_lt hx
  have hunits := unitsOfRank_mono hrank
  rw [hinfinite] at hunits
  have hpow (m : Nat) (hm : k < m) : 2 ^ k < 2 ^ m := Nat.pow_lt_pow_right (by decide) hm
  exact absurd (hunits.trans h) (Nat.not_le.2 (hpow 2098 hk))

/-! ### Arithmetic -/

theorem shiftLeft_eq_mul (a n : Nat) : a <<< n = a * 1 <<< n := by
  rw [Nat.shiftLeft_eq, Nat.one_shiftLeft]

/-- A quotient by one or more is no greater, apart from its rounding. -/
theorem units_div_le (hk : 52 ≤ k) (hx : x.units ≤ 2 ^ k) (hy : unitsOfOne ≤ y.units) :
    (x / y).units ≤ 2 ^ (k + 1) := by
  refine units_ofUnitQuotient_le (by omega) ?_
  have hpos : 0 < y.units := Nat.lt_of_lt_of_le unitsOfOne_pos hy
  have hquotient : x.units <<< 1074 / y.units ≤ x.units := by
    rw [shiftLeft_eq_mul]
    exact Nat.div_le_of_le_mul ((Nat.mul_le_mul_left _ hy).trans_eq (Nat.mul_comm ..))
  exact (hquotient.trans hx).trans_lt (Nat.pow_lt_pow_right (by decide : 1 < 2) (Nat.lt_succ_self k))

theorem units_ofInt_le {n : Int} {bits : Nat} (h : n.natAbs < 2 ^ bits) :
    (ofInt n).units ≤ 2 ^ (bits + 1074) := by
  refine units_ofUnitQuotient_le (by omega) ?_
  rw [Nat.div_one, Nat.shiftLeft_eq, Nat.pow_add]
  exact Nat.mul_lt_mul_of_pos_right h (Nat.two_pow_pos 1074)

/-- **An integer of a word's range is finite as a double.** -/
theorem isFinite_ofInt {n : Int} (h : n.natAbs < 2 ^ 64) : (ofInt n).isFinite :=
  isFinite_of_units_le (by decide) (units_ofInt_le h)

theorem isFinite_neg (x : Double) : (-x).isFinite = x.isFinite := rfl

end Double

namespace Decimal

open Double

theorem unitsOfOne_le_power (n : Nat) : unitsOfOne ≤ (power n).units := by
  have hstart {k : Nat} (hk : 52 ≤ k) : 1 <<< k = unitsOfRank ((k - 51) * stepSize) := by
    rw [Nat.one_shiftLeft, unitsOfRank_stepStart hk]
  have hone : unitsOfOne = unitsOfRank ((1074 - 51) * stepSize) := hstart (by decide)
  rw [hone]
  have hshift {a : Nat} (ha : 0 < a) (k : Nat) : 2 ^ k ≤ a <<< k / 1 := by
    rw [Nat.div_one, Nat.shiftLeft_eq]
    exact Nat.le_mul_of_pos_left _ ha
  exact unitsOfRank_mono (le_nearestRank (by decide) (by decide) (hshift (Nat.pow_pos (by decide)) _))

/-- Digits that fit a word, divided by one or two powers of ten, are finite. -/
theorem isFinite_divided {digits : Nat} (h : digits < 2 ^ 64) (n : Nat) :
    (divided digits n).isFinite := by
  have habs : (digits : Int).natAbs < 2 ^ 64 := h
  have hdigits := units_ofInt_le habs
  unfold divided
  dsimp only
  split
  · exact isFinite_of_units_le (by decide) (units_div_le (by decide) hdigits (unitsOfOne_le_power n))
  split
  · have hfirst := units_div_le (by decide) hdigits (unitsOfOne_le_power 308)
    exact isFinite_of_units_le (by decide)
      (units_div_le (by decide) hfirst (unitsOfOne_le_power (n - 308)))
  · exact isFinite_ofInt (by decide)

theorem isFinite_multiplied? {digits n : Nat} {x : Double} (h : multiplied? digits n = some x) :
    x.isFinite := by
  unfold multiplied? at h
  dsimp only at h
  split at h
  · split at h
    · next hfinite =>
      cases h
      exact hfinite
    · cases h
  · split at h
    · cases h
      exact isFinite_ofInt (by decide)
    · cases h

/-- **The stepwise reading** of digits that fit a word is finite. -/
theorem isFinite_stepwise? {d : Decimal} {x : Double} (hdigits : d.digits < 2 ^ 64)
    (h : d.stepwise? = some x) : x.isFinite := by
  obtain ⟨magnitude, hmagnitude, rfl⟩ := Option.map_eq_some_iff.1 h
  have hfinite : magnitude.isFinite := by
    split at hmagnitude
    · exact isFinite_multiplied? hmagnitude
    · cases hmagnitude
      exact isFinite_divided hdigits _
  split
  · rw [isFinite_neg]
    exact hfinite
  · exact hfinite

end Decimal

namespace Json.Numeral

open Double

theorem takeWhole_lt {taken : Nat} (h : taken < UInt64.size) (digits : List Char) :
    (takeWhole taken digits).1 < UInt64.size := by
  induction digits generalizing taken with
  | nil => exact h
  | cons c rest ih =>
    unfold takeWhole
    dsimp only
    split
    · next hnext => exact ih hnext
    · exact h

theorem takeFraction_lt {taken : Nat} (h : taken < UInt64.size) (places : Nat)
    (digits : List Char) : (takeFraction taken places digits).1 < UInt64.size := by
  induction digits generalizing taken places with
  | nil => exact h
  | cons c rest ih =>
    unfold takeFraction
    dsimp only
    split
    · next hnext => exact ih hnext _
    · exact h

theorem digits_decimal_lt (n : Numeral) : n.decimal.digits < 2 ^ 64 :=
  takeFraction_lt (takeWhole_lt (by decide) n.whole) 0 n.fraction

/-- A number that a text can hold: an integer of a word's range, or a finite double. -/
def Holds : Json → Prop
  | .integer n => -0x8000000000000000 ≤ n ∧ n < UInt64.size
  | .real x => x.isFinite
  | _ => False

/-- **The value of a numeral** is an integer of a word's range or a finite double. -/
theorem holds_of_value? {n : Numeral} {v : Json} (h : n.value? = some v) : Holds v := by
  have hsize : UInt64.size = 2 ^ 64 := rfl
  unfold value? at h
  dsimp only at h
  split at h
  · next hwhole =>
    simp only [Bool.and_eq_true, decide_eq_true_eq] at hwhole
    have hlt := hwhole.2
    split at h
    · cases h
      exact ⟨by omega, by omega⟩
    split at h
    · next hnegative =>
      cases h
      simp only [Bool.and_eq_true, decide_eq_true_eq] at hnegative
      exact ⟨by omega, by omega⟩
    · cases h
      exact isFinite_ofInt (by omega)
  · obtain ⟨x, hx, rfl⟩ := Option.map_eq_some_iff.1 h
    exact Decimal.isFinite_stepwise? (digits_decimal_lt n) hx

end Json.Numeral

end ShapeFlow
