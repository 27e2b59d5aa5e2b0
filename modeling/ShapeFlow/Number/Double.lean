/-!
# Binary floating-point numbers

The values of binary64 by their bits. The sign is kept apart from the other 63 bits, which rank the
magnitudes: rank 0 is zero, then each rank is one magnitude up to infinity, and whatever ranks
beyond infinity is not a number. Every magnitude is a whole number of units of `2 ^ -1074`, so all
arithmetic below is on natural numbers. No reader of this library makes a value that is not a
number, but a parameter can be set to one.

* `Double.lt_iff`: nothing is below or above a value that is not a number.
* `Double.units_lt_units`: a greater rank is a greater magnitude.
* `Double.nearestRank_units`: rounding a magnitude gives its own rank.
-/

namespace ShapeFlow

/-- The number of magnitudes in a step, `2 ^ 52`. -/
def stepSize : Nat := 0x10000000000000

/-- The rank of infinity, behind 2047 steps. -/
def infinityRank : Nat := 0x7ff0000000000000

/-- The number of ranks, `2 ^ 63`. -/
def rankCount : Nat := 0x8000000000000000

/-- A binary64 value: its sign and its other bits. -/
structure Double where
  negative : Bool
  rank : Nat
  rank_lt : rank < rankCount

namespace Double

instance : DecidableEq Double := fun a b =>
  if h : a.negative = b.negative ∧ a.rank = b.rank then
    isTrue (by cases a; cases b; simp_all)
  else
    isFalse (fun e => h (e ▸ ⟨rfl, rfl⟩))

/-- The magnitude of a rank in units of `2 ^ -1074`. In the first two steps it is the rank, and from
there on every step doubles the distance of its magnitudes. -/
def unitsOfRank (rank : Nat) : Nat :=
  if rank < stepSize then rank else (stepSize + rank % stepSize) <<< (rank / stepSize - 1)

/-- The units of one. -/
def unitsOfOne : Nat := 1 <<< 1074

/-- The magnitude in units of `2 ^ -1074`. -/
def units (x : Double) : Nat := unitsOfRank x.rank

/-- A quotient rounded to the nearest whole number, a half going to the even neighbour. -/
def roundHalfEven (num den : Nat) : Nat :=
  let floor := num / den
  let rest := 2 * (num % den)
  if den < rest ∨ (rest = den ∧ floor % 2 = 1) then floor + 1 else floor

/-- The rank nearest to a quotient of units, a half going to the even rank. The quotient is cut to
53 binary digits; a carry out of them is the next rank all the same. -/
def nearestRank (num den : Nat) : Nat :=
  let shift := Nat.log2 (num / den) - 52
  min infinityRank (shift * stepSize + roundHalfEven num (den <<< shift))

/-- The number nearest to a quotient of units. -/
def ofUnitQuotient (negative : Bool) (num den : Nat) : Double :=
  ⟨negative, nearestRank num den, Nat.lt_of_le_of_lt (Nat.min_le_left ..) (by decide)⟩

/-- The number nearest to a quotient. -/
def ofQuotient (negative : Bool) (num den : Nat) : Double :=
  ofUnitQuotient negative (num <<< 1074) den

/-- The number nearest to an integer. -/
def ofInt (n : Int) : Double := ofQuotient (decide (n < 0)) n.natAbs 1

instance (n : Nat) : OfNat Double n := ⟨ofInt n⟩

instance : Inhabited Double := ⟨0⟩

/-- The number with the other sign. -/
instance : Neg Double := ⟨fun x => ⟨!x.negative, x.rank, x.rank_lt⟩⟩

/-- Zero with a sign. -/
def zero (negative : Bool) : Double := ⟨negative, 0, by decide⟩

/-- Infinity with a sign. -/
def infinity (negative : Bool) : Double := ⟨negative, infinityRank, by decide⟩

/-- Whether it is not a number. -/
def isNaN (x : Double) : Bool := infinityRank < x.rank

/-- Whether it is a number and not infinite. -/
def isFinite (x : Double) : Bool := x.rank < infinityRank

/-- Whether it is a zero of either sign. -/
def isZero (x : Double) : Bool := x.rank == 0

/-- The place of the number in numeric order; both zeros have place 0. -/
def place (x : Double) : Int := if x.negative then -x.rank else x.rank

/-- Numeric comparison: the two zeros are equal in it, and it fails on what is not a number. -/
instance : LT Double := ⟨fun x y => x.isNaN = false ∧ y.isNaN = false ∧ x.place < y.place⟩

instance : LE Double := ⟨fun x y => x.isNaN = false ∧ y.isNaN = false ∧ x.place ≤ y.place⟩

/-- Nothing is below or above what is not a number. -/
theorem lt_iff {x y : Double} :
    x < y ↔ x.isNaN = false ∧ y.isNaN = false ∧ x.place < y.place := Iff.rfl

theorem le_iff {x y : Double} :
    x ≤ y ↔ x.isNaN = false ∧ y.isNaN = false ∧ x.place ≤ y.place := Iff.rfl

instance (x y : Double) : Decidable (x < y) := decidable_of_iff _ lt_iff.symm

instance (x y : Double) : Decidable (x ≤ y) := decidable_of_iff _ le_iff.symm

/-- Whether a finite number has no fraction. -/
def isWhole (x : Double) : Bool := x.isFinite && x.units % unitsOfOne == 0

/-- The integer part, cut toward zero; what is not a number has 0. -/
def truncate (x : Double) : Int :=
  let whole : Int := (x.units / unitsOfOne : Nat)
  if x.isNaN then 0 else if x.negative then -whole else whole

/-- The integer part as an unsigned word, cut to its range. -/
def toWord (x : Double) : UInt64 := UInt64.ofNat (min x.truncate.toNat (UInt64.size - 1))

/-- The integer part, cut to the range of a signed word. -/
def toSigned (x : Double) : Int :=
  max (-0x8000000000000000) (min x.truncate 0x7fffffffffffffff)

/-- The rounded product of two finite numbers. -/
instance : Mul Double where
  mul x y := ofUnitQuotient (x.negative ^^ y.negative) (x.units * y.units) unitsOfOne

/-- The rounded quotient of two finite numbers, the second not zero. -/
instance : Div Double where
  div x y := ofUnitQuotient (x.negative ^^ y.negative) (x.units <<< 1074) y.units

theorem isNaN_of_isFinite {x : Double} (h : x.isFinite) : x.isNaN = false := by
  have hlt : x.rank < infinityRank := of_decide_eq_true h
  exact decide_eq_false (Nat.lt_asymm hlt)

theorem le_of_not_lt {x y : Double} (hx : x.isNaN = false) (hy : y.isNaN = false)
    (h : ¬ x < y) : y ≤ x :=
  ⟨hy, hx, Int.not_lt.1 fun hlt => h ⟨hx, hy, hlt⟩⟩

theorem le_trans {x y z : Double} (hxy : x ≤ y) (hyz : y ≤ z) : x ≤ z :=
  ⟨hxy.1, hyz.2.1, Int.le_trans hxy.2.2 hyz.2.2⟩

theorem shiftLeft_pos {a : Nat} (h : 0 < a) (n : Nat) : 0 < a <<< n := by
  rw [Nat.shiftLeft_eq]
  exact Nat.mul_pos h (Nat.two_pow_pos n)

theorem unitsOfOne_pos : 0 < unitsOfOne := shiftLeft_pos Nat.one_pos 1074

theorem shiftLeft_lt_shiftLeft {a b : Nat} (h : a < b) (n : Nat) : a <<< n < b <<< n := by
  rw [Nat.shiftLeft_eq, Nat.shiftLeft_eq]
  exact Nat.mul_lt_mul_of_pos_right h (Nat.two_pow_pos n)

/-- A rank from its step and its place within the step. -/
theorem eq_step_add_place {rank : Nat} (h : ¬ rank < stepSize) :
    ∃ step place, place < stepSize ∧ rank = (step + 1) * stepSize + place := by
  refine ⟨rank / stepSize - 1, rank % stepSize, Nat.mod_lt _ (by decide), ?_⟩
  have hpos : 0 < rank / stepSize := Nat.div_pos (Nat.le_of_not_lt h) (by decide)
  have hsplit := Nat.div_add_mod rank stepSize
  rw [Nat.sub_add_cancel hpos, Nat.mul_comm, hsplit]

/-- The magnitude of a rank from its step and its place within the step. -/
theorem unitsOfRank_step (step : Nat) {place : Nat} (h : place < stepSize) :
    unitsOfRank ((step + 1) * stepSize + place) = (stepSize + place) <<< step := by
  have h1 : ((step + 1) * stepSize + place) % stepSize = place := by
    rw [Nat.mul_comm, Nat.mul_add_mod, Nat.mod_eq_of_lt h]
  have h2 : ((step + 1) * stepSize + place) / stepSize = step + 1 := by
    rw [Nat.mul_comm, Nat.mul_add_div (by decide), Nat.div_eq_of_lt h, Nat.add_zero]
  have h3 : ¬ (step + 1) * stepSize + place < stepSize := by
    simp only [stepSize]
    omega
  rw [unitsOfRank, if_neg h3, h1, h2, Nat.add_sub_cancel]

/-- The next rank is a greater magnitude, within a step and across its end. -/
theorem unitsOfRank_lt_succ (r : Nat) : unitsOfRank r < unitsOfRank (r + 1) := by
  by_cases hr : r + 1 < stepSize
  · rw [unitsOfRank, unitsOfRank, if_pos hr, if_pos (Nat.lt_of_succ_lt hr)]
    exact Nat.lt_succ_self r
  by_cases hr' : r < stepSize
  · have hnext : r + 1 = (0 + 1) * stepSize + 0 := by omega
    rw [hnext, unitsOfRank_step 0 (by decide), unitsOfRank, if_pos hr', Nat.shiftLeft_zero]
    omega
  obtain ⟨step, place, hplace, rfl⟩ := eq_step_add_place hr'
  rw [unitsOfRank_step step hplace]
  by_cases hnext : place + 1 < stepSize
  · rw [Nat.add_assoc, unitsOfRank_step step hnext]
    exact shiftLeft_lt_shiftLeft (by omega) step
  · -- the next rank opens the next step
    have hopen : (step + 1) * stepSize + place + 1 = (step + 1 + 1) * stepSize + 0 := by
      rw [Nat.succ_mul (step + 1)]
      omega
    have hdouble : (stepSize + 0) <<< (step + 1) = (2 * stepSize) <<< step := by
      rw [Nat.shiftLeft_succ_inside, Nat.add_zero]
    rw [hopen, unitsOfRank_step (step + 1) (by decide), hdouble]
    exact shiftLeft_lt_shiftLeft (by omega) step

theorem unitsOfRank_strictMono {r s : Nat} (h : r < s) : unitsOfRank r < unitsOfRank s := by
  induction s with
  | zero => cases h
  | succ s ih =>
    rcases Nat.lt_succ_iff_lt_or_eq.1 h with h | rfl
    · exact Nat.lt_trans (ih h) (unitsOfRank_lt_succ s)
    · exact unitsOfRank_lt_succ r

/-- **A greater rank is a greater magnitude.** -/
theorem units_lt_units (x y : Double) : x.units < y.units ↔ x.rank < y.rank := by
  constructor
  · intro h
    by_cases hr : x.rank < y.rank
    · exact hr
    rcases Nat.lt_or_eq_of_le (Nat.le_of_not_lt hr) with hlt | heq
    · exact absurd h (Nat.lt_asymm (unitsOfRank_strictMono hlt))
    · rw [units, units, heq] at h
      exact absurd h (Nat.lt_irrefl _)
  · intro h
    exact unitsOfRank_strictMono h

theorem roundHalfEven_mul (n : Nat) {den : Nat} (h : 0 < den) :
    roundHalfEven (n * den) den = n := by
  have hrest : ¬ (den < 2 * 0 ∨ (2 * 0 = den ∧ n % 2 = 1)) := by omega
  rw [roundHalfEven, Nat.mul_div_cancel _ h, Nat.mul_mod_left, if_neg hrest]

/-- A number of 53 binary digits, shifted, has the rank of its step and place. -/
theorem log2_step (step : Nat) {place : Nat} (h : place < stepSize) :
    Nat.log2 ((stepSize + place) <<< step) = 52 + step := by
  have hpos : (stepSize + place) <<< step ≠ 0 := by
    refine Nat.pos_iff_ne_zero.1 (shiftLeft_pos ?_ step)
    exact Nat.lt_of_lt_of_le (by decide) (Nat.le_add_right ..)
  rw [Nat.log2_eq_iff hpos, Nat.shiftLeft_eq, Nat.pow_add, Nat.add_right_comm, Nat.pow_add]
  constructor
  · exact Nat.mul_le_mul_right _ (Nat.le_add_right ..)
  · exact Nat.mul_lt_mul_of_pos_right (Nat.add_lt_add_left h _) (Nat.two_pow_pos _)

/-- **Rounding a magnitude** gives its own rank. -/
theorem nearestRank_units {x : Double} (h : x.isNaN = false) :
    nearestRank x.units 1 = x.rank := by
  obtain ⟨negative, r, _⟩ := x
  have hr : r ≤ infinityRank := Nat.le_of_not_lt (of_decide_eq_false h)
  show nearestRank (unitsOfRank r) 1 = r
  by_cases hsmall : r < stepSize
  · have hlog : Nat.log2 r - 52 = 0 := by
      by_cases h0 : r = 0
      · rw [h0]
        rfl
      · have : Nat.log2 r < 52 := (Nat.log2_lt h0).2 (show r < 2 ^ 52 from hsmall)
        omega
    have hround := roundHalfEven_mul r Nat.one_pos
    rw [Nat.mul_one] at hround
    rw [unitsOfRank, if_pos hsmall, nearestRank, Nat.div_one, hlog, Nat.shiftLeft_zero, hround,
      Nat.zero_mul, Nat.zero_add]
    omega
  · obtain ⟨step, place, hplace, rfl⟩ := eq_step_add_place hsmall
    have hround := roundHalfEven_mul (stepSize + place) (Nat.two_pow_pos step)
    rw [← Nat.shiftLeft_eq] at hround
    rw [unitsOfRank_step step hplace, nearestRank, Nat.div_one, log2_step step hplace,
      Nat.add_sub_cancel_left, Nat.one_shiftLeft, hround, Nat.min_eq_right]
    · rw [Nat.succ_mul]
      omega
    · rw [← Nat.add_assoc, ← Nat.succ_mul]
      exact hr

end Double

end ShapeFlow
