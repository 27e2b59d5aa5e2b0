import ShapeFlow.Proofs.Finite
import Mathlib.Algebra.Order.Group.Unbundled.Int
import Mathlib.Algebra.Order.Ring.Int

/-!
# Integers as doubles

A double keeps 53 binary digits of an integer, so an integer of a word's range turns into the
nearest integer that has no more of them. Whether a double is below another is decided on integers
too, by their units with a sign.

* `Short`: an integer of at most 53 significant binary digits.
* `shortened_nearest`: `shortened` gives the nearest such integer, and `shortened_tie`: a half
  goes to the even one.
* `le_shortened`, `shortened_le`: rounding does not pass a short integer.
* `Double.signedUnits_ofInt`: **an integer as a double is the shortened integer.**
-/

namespace ShapeFlow

open Double

variable {n p : ℤ} {m k den : ℕ}

/-! ## Rounding quotients -/

namespace Double

theorem roundHalfEven_cases (m den : ℕ) :
    (roundHalfEven m den = m / den ∧ 2 * (m % den) ≤ den ∧
      (2 * (m % den) = den → 2 ∣ m / den)) ∨
    (roundHalfEven m den = m / den + 1 ∧ den ≤ 2 * (m % den) ∧
      (2 * (m % den) = den → 2 ∣ m / den + 1)) := by
  unfold roundHalfEven
  dsimp only
  split <;> omega

/-- A multiple is at or below the one that division finds, or at or above the next one. -/
theorem mul_le_or_le_mul (k q den : ℕ) : k * den ≤ q * den ∨ q * den + den ≤ k * den := by
  rcases Nat.lt_or_ge q k with hlt | hle
  · right
    rw [← Nat.succ_mul]
    exact Nat.mul_le_mul_right den hlt
  · exact Or.inl (Nat.mul_le_mul_right den hle)

/-- No multiple is nearer than the rounded quotient. -/
theorem roundHalfEven_nearest (hden : 0 < den) (m k : ℕ) :
    (((roundHalfEven m den * den : ℕ) : ℤ) - m).natAbs ≤ (((k * den : ℕ) : ℤ) - m).natAbs := by
  have hsplit := Nat.div_add_mod' m den
  have hmod := Nat.mod_lt m hden
  have hside := mul_le_or_le_mul k (m / den) den
  rcases roundHalfEven_cases m den with ⟨hround, hhalf, -⟩ | ⟨hround, hhalf, -⟩
  · rw [hround]
    omega
  · rw [hround, Nat.succ_mul]
    omega

/-- Where another multiple is as near, the rounded quotient is even. -/
theorem even_of_tie (hden : 0 < den) (hne : k ≠ roundHalfEven m den)
    (htie : (((k * den : ℕ) : ℤ) - m).natAbs = (((roundHalfEven m den * den : ℕ) : ℤ) - m).natAbs) :
    2 ∣ roundHalfEven m den := by
  have hsplit := Nat.div_add_mod' m den
  have hmod := Nat.mod_lt m hden
  have hside : k * den + den ≤ roundHalfEven m den * den ∨
      roundHalfEven m den * den + den ≤ k * den := by
    rw [← Nat.succ_mul, ← Nat.succ_mul]
    exact (Nat.lt_or_gt_of_ne hne).imp (Nat.mul_le_mul_right den) (Nat.mul_le_mul_right den)
  -- a multiple as near leaves nothing but a half
  rcases roundHalfEven_cases m den with ⟨hround, hhalf, heven⟩ | ⟨hround, hhalf, heven⟩
  · rw [hround] at htie hside ⊢
    exact heven (by omega)
  · rw [hround, Nat.succ_mul] at htie hside
    rw [hround]
    exact heven (by omega)

theorem roundHalfEven_mul_right {c : ℕ} (hc : 0 < c) (m den : ℕ) :
    roundHalfEven (m * c) (den * c) = roundHalfEven m den := by
  have hmod : m * c % (den * c) = m % den * c := Nat.mul_mod_mul_right ..
  have hdouble : 2 * (m % den * c) = 2 * (m % den) * c := (Nat.mul_assoc ..).symm
  rw [roundHalfEven, Nat.mul_div_mul_right _ _ hc, hmod, hdouble, roundHalfEven]
  simp only [Nat.mul_lt_mul_right hc, Nat.mul_left_inj hc.ne']

end Double

/-! ## Binary digits -/

/-- How many binary digits a number has beyond 53. -/
def excess (m : ℕ) : ℕ := m.log2 - 52

theorem lt_two_pow_excess (m : ℕ) : m < 2 ^ 53 * 2 ^ excess m := by
  have hdigits : m.log2 + 1 ≤ 53 + excess m := by
    unfold excess
    omega
  rw [← Nat.pow_add]
  exact Nat.lt_of_lt_of_le Nat.lt_log2_self (Nat.pow_le_pow_right Nat.two_pos hdigits)

theorem two_pow_excess_le (h : excess m ≠ 0) : 2 ^ 52 * 2 ^ excess m ≤ m := by
  have hpos : m ≠ 0 := by
    rintro rfl
    exact h (by rw [excess, Nat.log2_zero])
  have hdigits : 52 + excess m ≤ m.log2 := by
    unfold excess at h ⊢
    omega
  rw [← Nat.pow_add]
  exact Nat.le_trans (Nat.pow_le_pow_right Nat.two_pos hdigits) (Nat.log2_self_le hpos)

/-- A number whose digits beyond 53 are rounded off. -/
def rounded (m : ℕ) : ℕ := roundHalfEven m (2 ^ excess m) * 2 ^ excess m

/-- An integer of at most 53 significant binary digits. -/
def Short (n : ℤ) : Prop := ∃ digits places : ℕ, digits < 2 ^ 53 ∧ n.natAbs = digits * 2 ^ places

/-- An integer whose digits beyond 53 are rounded off, a half going to the even neighbour. -/
def shortened (n : ℤ) : ℤ := if n < 0 then -rounded n.natAbs else rounded n.natAbs

theorem short_of_natAbs_le (h : n.natAbs ≤ 2 ^ 53) : Short n := by
  rcases Nat.lt_or_eq_of_le h with hlt | heq
  · exact ⟨n.natAbs, 0, hlt, (Nat.mul_one _).symm⟩
  · exact ⟨1, 53, by decide, by rw [heq, Nat.one_mul]⟩

/-! ## Rounding natural numbers -/

section

variable {digits : ℕ} (h : digits < 2 ^ 53)
include h

/-- Few digits either end before those that are rounded off, or are far from them. -/
theorem multiple_or_lt (m places : ℕ) : (∃ k, digits * 2 ^ places = k * 2 ^ excess m) ∨
    (digits * 2 ^ places < 2 ^ 52 * 2 ^ excess m ∧ 2 ^ 52 * 2 ^ excess m ≤ m) := by
  rcases Nat.lt_or_ge places (excess m) with hlt | hle
  · right
    refine ⟨?_, two_pow_excess_le (Nat.ne_zero_of_lt hlt)⟩
    have hpow : 2 ^ places * 2 ≤ 2 ^ excess m := by
      rw [← Nat.pow_succ]
      exact Nat.pow_le_pow_right Nat.two_pos hlt
    calc digits * 2 ^ places < 2 ^ 53 * 2 ^ places :=
          Nat.mul_lt_mul_of_pos_right h (Nat.two_pow_pos places)
      _ = 2 ^ 52 * (2 ^ places * 2) := by omega
      _ ≤ 2 ^ 52 * 2 ^ excess m := Nat.mul_le_mul_left _ hpow
  · refine Or.inl ⟨digits * 2 ^ (places - excess m), ?_⟩
    rw [Nat.mul_assoc, ← Nat.pow_add, Nat.sub_add_cancel hle]

/-- No number of few digits is nearer than the rounded one. -/
theorem rounded_nearest (m places : ℕ) :
    ((rounded m : ℤ) - m).natAbs ≤ (((digits * 2 ^ places : ℕ) : ℤ) - m).natAbs := by
  have hnearest := roundHalfEven_nearest (Nat.two_pow_pos (excess m)) m
  rcases multiple_or_lt h m places with ⟨k, hk⟩ | ⟨hlt, hle⟩
  · rw [hk]
    exact hnearest k
  · have hleading := hnearest (2 ^ 52)
    unfold rounded
    omega

/-- Where another number of few digits is as near, the rounded one is even in its last digit. -/
theorem rounded_tie (m places : ℕ) (hne : digits * 2 ^ places ≠ rounded m)
    (htie : (((digits * 2 ^ places : ℕ) : ℤ) - m).natAbs = ((rounded m : ℤ) - m).natAbs) :
    2 ^ (excess m + 1) ∣ rounded m := by
  have hpos := Nat.two_pow_pos (excess m)
  have heven : 2 ∣ roundHalfEven m (2 ^ excess m) := by
    rcases multiple_or_lt h m places with ⟨k, hk⟩ | ⟨hlt, hle⟩
    · rw [hk] at hne htie
      exact even_of_tie hpos (fun heq => hne (by rw [heq, rounded])) htie
    · -- the leading digit alone would be nearer
      have hleading := roundHalfEven_nearest hpos m (2 ^ 52)
      unfold rounded at htie
      omega
  rw [Nat.pow_succ', rounded]
  exact Nat.mul_dvd_mul_right heven _

theorem rounded_digits (places : ℕ) : rounded (digits * 2 ^ places) = digits * 2 ^ places := by
  have hnearest := rounded_nearest h (digits * 2 ^ places) places
  omega

end

theorem rounded_zero : rounded 0 = 0 := by
  have hself := rounded_digits (Nat.two_pow_pos 53) 0
  rwa [Nat.zero_mul] at hself

theorem roundHalfEven_excess_le (m : ℕ) : roundHalfEven m (2 ^ excess m) ≤ 2 ^ 53 := by
  have hdigits : m / 2 ^ excess m < 2 ^ 53 :=
    (Nat.div_lt_iff_lt_mul (Nat.two_pow_pos _)).2 (lt_two_pow_excess m)
  exact (roundHalfEven_le ..).trans hdigits

theorem rounded_mul_two_pow (m j : ℕ) : rounded (m * 2 ^ j) = rounded m * 2 ^ j := by
  by_cases hm : m < 2 ^ 53
  · have hself := rounded_digits hm 0
    rw [Nat.pow_zero, Nat.mul_one] at hself
    rw [rounded_digits hm, hself]
  · have hpos : m ≠ 0 := by omega
    have hlog : (m * 2 ^ j).log2 = m.log2 + j := by
      rw [Nat.log2_eq_iff (Nat.mul_ne_zero hpos (Nat.two_pow_pos j).ne'), Nat.pow_add,
        Nat.add_right_comm, Nat.pow_add]
      exact ⟨Nat.mul_le_mul_right _ (Nat.log2_self_le hpos),
        Nat.mul_lt_mul_of_pos_right Nat.lt_log2_self (Nat.two_pow_pos j)⟩
    have hlarge : 52 ≤ m.log2 := (Nat.le_log2 hpos).2 (by omega)
    have hexcess : excess (m * 2 ^ j) = excess m + j := by
      rw [excess, hlog, excess]
      omega
    rw [rounded, hexcess, Nat.pow_add, roundHalfEven_mul_right (Nat.two_pow_pos j), rounded,
      Nat.mul_assoc]

/-! ## Short integers -/

theorem natAbs_shortened (n : ℤ) : (shortened n).natAbs = rounded n.natAbs := by
  unfold shortened
  split <;> omega

theorem short_shortened (n : ℤ) : Short (shortened n) := by
  have hdigits := roundHalfEven_excess_le n.natAbs
  rcases Nat.lt_or_eq_of_le hdigits with hlt | heq
  · exact ⟨_, _, hlt, natAbs_shortened n⟩
  · -- a carry out of the digits leaves a power of two
    refine ⟨1, 53 + excess n.natAbs, by decide, ?_⟩
    rw [natAbs_shortened, rounded, heq, Nat.pow_add, Nat.one_mul]

/-- An integer is as far from its rounding as its magnitude is. -/
theorem natAbs_shortened_sub (n : ℤ) :
    (shortened n - n).natAbs = ((rounded n.natAbs : ℤ) - n.natAbs).natAbs := by
  unfold shortened
  split <;> omega

/-- Magnitudes are no farther from each other than integers. -/
theorem natAbs_sub_natAbs_le (p n : ℤ) : ((p.natAbs : ℤ) - n.natAbs).natAbs ≤ (p - n).natAbs := by
  omega

/-- **Rounding gives a nearest short integer.** -/
theorem shortened_nearest (hp : Short p) (n : ℤ) : (shortened n - n).natAbs ≤ (p - n).natAbs := by
  obtain ⟨digits, places, hdigits, habs⟩ := hp
  have hnearest := rounded_nearest hdigits n.natAbs places
  rw [← habs, ← natAbs_shortened_sub] at hnearest
  exact hnearest.trans (natAbs_sub_natAbs_le p n)

/-- An integer that is as near as the rounding, but not it, is of another magnitude. -/
theorem natAbs_ne_of_tie (hne : p ≠ shortened n)
    (htie : (p - n).natAbs = (shortened n - n).natAbs) : p.natAbs ≠ rounded n.natAbs := by
  intro habs
  have hzero : n.natAbs = 0 → rounded n.natAbs = 0 := fun h => h ▸ rounded_zero
  unfold shortened at hne htie
  split at hne <;> omega

/-- Where another short integer is as near, the last digit of the nearest one is even. -/
theorem shortened_tie (hp : Short p) (hne : p ≠ shortened n)
    (htie : (p - n).natAbs = (shortened n - n).natAbs) :
    2 ^ (excess n.natAbs + 1) ∣ (shortened n).natAbs := by
  have hmagnitude := natAbs_ne_of_tie hne htie
  have hfar := natAbs_sub_natAbs_le p n
  obtain ⟨digits, places, hdigits, habs⟩ := hp
  rw [natAbs_shortened_sub] at htie
  rw [htie] at hfar
  rw [habs] at hmagnitude hfar
  rw [natAbs_shortened]
  exact rounded_tie hdigits n.natAbs places hmagnitude
    (hfar.antisymm (rounded_nearest hdigits n.natAbs places))

theorem shortened_eq_self_iff : shortened n = n ↔ Short n := by
  constructor
  · intro h
    rw [← h]
    exact short_shortened n
  · intro h
    have hnearest := shortened_nearest h n
    omega

instance : DecidablePred Short := fun _ => decidable_of_iff _ shortened_eq_self_iff

theorem le_shortened (hp : Short p) (h : p ≤ n) : p ≤ shortened n := by
  have hnearest := shortened_nearest hp n
  omega

theorem shortened_le (hp : Short p) (h : n ≤ p) : shortened n ≤ p := by
  have hnearest := shortened_nearest hp n
  omega

/-! ## Magnitudes -/

namespace Double

variable {x y : Double}

/-- The magnitude of a rank from its step and its digits, a carry out of them included. -/
theorem unitsOfRank_digits {shift digits : ℕ} (hcarry : digits ≤ 2 * stepSize)
    (hfull : shift ≠ 0 → stepSize ≤ digits) :
    unitsOfRank (shift * stepSize + digits) = digits * 2 ^ shift := by
  rcases Nat.lt_or_ge digits stepSize with hlt | hge
  · have hshift : shift = 0 := by
      by_contra hne
      exact absurd (hfull hne) (Nat.not_le.2 hlt)
    rw [hshift, Nat.zero_mul, Nat.zero_add, unitsOfRank, if_pos hlt, Nat.pow_zero, Nat.mul_one]
  rcases Nat.lt_or_eq_of_le hcarry with hlt | rfl
  · obtain ⟨place, rfl⟩ := Nat.exists_eq_add_of_le hge
    have hplace : place < stepSize := by omega
    have hrank : shift * stepSize + (stepSize + place) = (shift + 1) * stepSize + place := by
      rw [Nat.succ_mul, Nat.add_assoc]
    rw [hrank, unitsOfRank_step shift hplace, Nat.shiftLeft_eq]
  · have hstep := unitsOfRank_step (shift + 1) (by decide : 0 < stepSize)
    simp only [Nat.add_zero] at hstep
    rw [Nat.shiftLeft_eq, Nat.pow_succ', ← Nat.mul_assoc, Nat.mul_comm stepSize 2] at hstep
    rw [← Nat.add_mul]
    exact hstep

/-- **The magnitude of the nearest rank** is the rounded number. -/
theorem unitsOfRank_nearestRank (h : nearestRank m 1 < infinityRank) :
    unitsOfRank (nearestRank m 1) = rounded m := by
  have hsize : 2 * stepSize = 2 ^ 53 := by decide
  have hrank : nearestRank m 1 = excess m * stepSize + roundHalfEven m (2 ^ excess m) := by
    unfold nearestRank at h ⊢
    dsimp only at h ⊢
    rw [Nat.div_one, Nat.one_shiftLeft] at h ⊢
    exact Nat.min_eq_right (by omega)
  rw [hrank, rounded, unitsOfRank_digits (hsize ▸ roundHalfEven_excess_le m)]
  intro hexcess
  have hleading : 2 ^ 52 ≤ m / 2 ^ excess m :=
    (Nat.le_div_iff_mul_le (Nat.two_pow_pos _)).2 (two_pow_excess_le hexcess)
  exact hleading.trans (le_roundHalfEven ..)

/-- The units of a number, negative below zero. -/
def signedUnits (x : Double) : ℤ := if x.negative then -x.units else x.units

theorem natAbs_signedUnits (x : Double) : x.signedUnits.natAbs = x.units := by
  unfold signedUnits
  split <;> omega

/-- **Numeric order is the order of signed units.** -/
theorem lt_iff_signedUnits :
    x < y ↔ x.isNaN = false ∧ y.isNaN = false ∧ x.signedUnits < y.signedUnits := by
  have hzero : (zero false).units = 0 := by
    decide +kernel
  have hx := units_lt_units (zero false) x
  have hy := units_lt_units (zero false) y
  have hxy := units_lt_units x y
  have hyx := units_lt_units y x
  refine lt_iff.trans (and_congr_right' (and_congr_right' ?_))
  rw [hzero] at hx hy
  change _ ↔ 0 < _ at hx hy
  unfold place signedUnits
  split <;> split <;> omega

/-- **No double has more than 53 digits.** -/
theorem short_signedUnits (x : Double) : Short x.signedUnits := by
  have hsize : stepSize = 2 ^ 52 := by decide
  unfold Short
  rw [natAbs_signedUnits, units]
  rcases Nat.lt_or_ge x.rank stepSize with hlt | hge
  · exact ⟨x.rank, 0, by omega, by rw [unitsOfRank, if_pos hlt, Nat.pow_zero, Nat.mul_one]⟩
  · obtain ⟨step, place, hplace, hrank⟩ := eq_step_add_place (Nat.not_lt.2 hge)
    refine ⟨stepSize + place, step, by omega, ?_⟩
    rw [hrank, unitsOfRank_step step hplace, Nat.shiftLeft_eq]

/-! ## Integers as doubles -/

theorem rounded_shiftLeft (m j : ℕ) : rounded (m <<< j) = rounded m * 1 <<< j := by
  rw [Nat.shiftLeft_eq, Nat.one_shiftLeft, rounded_mul_two_pow]

theorem units_ofInt (h : n.natAbs < 2 ^ 64) : (ofInt n).units = rounded n.natAbs * unitsOfOne := by
  have hrank : (ofInt n).rank = nearestRank (n.natAbs <<< 1074) 1 := rfl
  have hfinite : (ofInt n).rank < infinityRank := of_decide_eq_true (isFinite_ofInt h)
  rw [hrank] at hfinite
  rw [units, hrank, unitsOfRank_nearestRank hfinite, rounded_shiftLeft, unitsOfOne]

/-- **An integer as a double is the shortened integer.** -/
theorem signedUnits_ofInt (h : n.natAbs < 2 ^ 64) :
    (ofInt n).signedUnits = shortened n * unitsOfOne := by
  rw [signedUnits, units_ofInt h, shortened]
  by_cases hneg : n < 0
  · have hsign : (ofInt n).negative = true := decide_eq_true hneg
    rw [hsign, if_pos hneg, if_pos rfl, Int.natCast_mul, Int.neg_mul]
  · have hsign : (ofInt n).negative = false := decide_eq_false hneg
    rw [hsign, if_neg hneg, if_neg nofun, Int.natCast_mul]

theorem truncate_ofInt (h : n.natAbs < 2 ^ 64) : (ofInt n).truncate = shortened n := by
  have hwhole : (ofInt n).units / unitsOfOne = rounded n.natAbs := by
    rw [units_ofInt h, Nat.mul_div_cancel _ unitsOfOne_pos]
  have hnumber : ¬ (ofInt n).isNaN := by
    rw [isNaN_of_isFinite (isFinite_ofInt h)]
    exact Bool.false_ne_true
  rw [truncate, hwhole, if_neg hnumber, shortened]
  by_cases hneg : n < 0
  · have hsign : (ofInt n).negative = true := decide_eq_true hneg
    rw [hsign, if_pos hneg, if_pos rfl]
  · have hsign : (ofInt n).negative = false := decide_eq_false hneg
    rw [hsign, if_neg hneg, if_neg nofun]

theorem isWhole_ofInt (h : n.natAbs < 2 ^ 64) : (ofInt n).isWhole = true := by
  rw [isWhole, isFinite_ofInt h, units_ofInt h, Nat.mul_mod_left]
  rfl

/-- Rounding commutes with the change to units. -/
theorem shortened_mul_unitsOfOne (n : ℤ) :
    shortened (n * unitsOfOne) = shortened n * unitsOfOne := by
  have habs : (n * unitsOfOne).natAbs = n.natAbs <<< 1074 := by
    rw [Int.natAbs_mul, Int.natAbs_natCast, shiftLeft_eq_mul, unitsOfOne]
  have hone : (0 : ℤ) < unitsOfOne := Int.natCast_pos.2 unitsOfOne_pos
  rw [shortened, habs, rounded_shiftLeft, ← unitsOfOne, Int.natCast_mul, shortened]
  by_cases hneg : n < 0
  · rw [if_pos hneg, if_pos (Int.mul_neg_of_neg_of_pos hneg hone), Int.neg_mul]
  · have hnonneg : 0 ≤ n * unitsOfOne := Int.mul_nonneg (Int.not_lt.1 hneg) hone.le
    rw [if_neg hneg, if_neg (Int.not_lt.2 hnonneg)]

/-- **Rounding an integer does not pass a double.** -/
theorem signedUnits_le_ofInt (h : n.natAbs < 2 ^ 64) (hx : x.signedUnits ≤ n * unitsOfOne) :
    x.signedUnits ≤ (ofInt n).signedUnits := by
  rw [signedUnits_ofInt h, ← shortened_mul_unitsOfOne]
  exact le_shortened x.short_signedUnits hx

theorem ofInt_le_signedUnits (h : n.natAbs < 2 ^ 64) (hx : n * unitsOfOne ≤ x.signedUnits) :
    (ofInt n).signedUnits ≤ x.signedUnits := by
  rw [signedUnits_ofInt h, ← shortened_mul_unitsOfOne]
  exact shortened_le x.short_signedUnits hx

end Double

end ShapeFlow
