import ShapeFlow.Proofs.Window
import Mathlib.Algebra.BigOperators.Group.List.Lemmas
import Mathlib.Data.Set.List

/-!
# Flattening

The product of all dimensions is found step by step, and a step whose product is no word ends it.

* `Shape.HasVolume`: all dimensions of a shape are known, with this exact product.
* `Dim.foldlM_mul?_eq_known_iff`: **the steps find a word iff every leading product is one**, and
  then it is the last of them.
* `Block.flattening_is_exact`: without a dimension of 0, flattening finds the exact product iff it
  is a word, in whatever order the dimensions are.
-/

namespace ShapeFlow

open List

/-! ## Exact products -/

/-- The exact product of sizes. -/
def volume (sizes : List UInt64) : ℕ := (sizes.map UInt64.toNat).prod

theorem volume_cons (n : UInt64) (sizes : List UInt64) :
    volume (n :: sizes) = n.toNat * volume sizes := by
  simp [volume]

theorem volume_pos {sizes : List UInt64} (h : ∀ n ∈ sizes, 0 < n) : 0 < volume sizes := by
  induction sizes with
  | nil => exact Nat.one_pos
  | cons n sizes ih =>
    obtain ⟨hn, hsizes⟩ := List.forall_mem_cons.1 h
    rw [volume_cons]
    exact Nat.mul_pos (UInt64.lt_iff_toNat_lt.1 hn) (ih hsizes)

/-- **No leading product is greater than the whole**, among positive sizes. -/
theorem volume_take_le {sizes : List UInt64} (h : ∀ n ∈ sizes, 0 < n) (k : ℕ) :
    volume (sizes.take k) ≤ volume sizes := by
  have hsplit : volume (sizes.take k) * volume (sizes.drop k) = volume sizes := by
    rw [volume, volume, ← List.prod_append, ← List.map_append, List.take_append_drop, volume]
  have hrest : 0 < volume (sizes.drop k) := volume_pos fun n hn => h n (List.mem_of_mem_drop hn)
  rw [← hsplit]
  exact Nat.le_mul_of_pos_right _ hrest

namespace Shape

variable {x y : Shape} {n m : ℕ}

/-- All dimensions are known, and this is their exact product. -/
def HasVolume (x : Shape) (n : ℕ) : Prop := ∃ sizes, x = ofSizes sizes ∧ volume sizes = n

theorem ofSizes_injective : Function.Injective ofSizes := by
  intro sizes others h
  have hdims : sizes.map Dim.known = others.map Dim.known := congrArg dims h
  exact List.map_injective_iff.2 (fun _ _ => Dim.known.inj) hdims

theorem HasVolume.unique (hn : x.HasVolume n) (hm : x.HasVolume m) : n = m := by
  obtain ⟨sizes, rfl, rfl⟩ := hn
  obtain ⟨others, heq, rfl⟩ := hm
  rw [ofSizes_injective heq]

theorem exists_hasVolume_iff : (∃ n, x.HasVolume n) ↔ .unknown ∉ x.dims := by
  constructor
  · rintro ⟨_, sizes, rfl, rfl⟩
    simp [ofSizes]
  · intro h
    have hknown : ∀ d ∈ x.dims, ∃ n, Dim.known n = d := by
      intro d hd
      cases d with
      | known n => exact ⟨n, rfl⟩
      | unknown => exact absurd hd h
    have hrange : x.dims ∈ Set.range (List.map Dim.known) := by
      rw [Set.range_list_map]
      exact hknown
    obtain ⟨sizes, hsizes⟩ := hrange
    exact ⟨_, sizes, congrArg Shape.mk hsizes.symm, rfl⟩

/-- **The order of the dimensions does not matter** to their product. -/
theorem HasVolume.perm (hx : x.HasVolume n) (h : x.dims.Perm y.dims) : y.HasVolume n := by
  obtain ⟨sizes, rfl, rfl⟩ := hx
  have hknown : .unknown ∉ y.dims := by
    rw [← h.mem_iff]
    simp [ofSizes]
  obtain ⟨_, others, rfl, -⟩ := exists_hasVolume_iff.2 hknown
  refine ⟨others, rfl, ?_⟩
  have hsizes : sizes.Perm others :=
    (List.map_perm_map_iff fun _ _ => Dim.known.inj).1 h
  exact (hsizes.map UInt64.toNat).prod_eq.symm

end Shape

/-! ## Step by step -/

namespace Dim

variable {ds : List Dim} {sizes : List UInt64}

/-- The leading products behind a first size are those that take this size in. -/
theorem leading_cons_iff {a n : UInt64} :
    (∀ k, a.toNat * volume ((n :: sizes).take k) < UInt64.size) ↔
      ∀ k, a.toNat * n.toNat * volume (sizes.take k) < UInt64.size := by
  have hshift : ∀ k, a.toNat * volume ((n :: sizes).take (k + 1)) =
      a.toNat * n.toNat * volume (sizes.take k) := by
    intro k
    rw [List.take_succ_cons, volume_cons, Nat.mul_assoc]
  constructor
  · intro h k
    rw [← hshift]
    exact h (k + 1)
  · intro h k
    cases k with
    | zero => exact (Nat.mul_one _).trans_lt (UInt64.toNat_lt a)
    | succ k => exact (hshift k).trans_lt (h k)

/-- **The steps find a word iff every leading product is one**, and then it is the product of
all. -/
theorem foldlM_mul?_known_iff {a m : UInt64} :
    (sizes.map known).foldlM mul? (known a) = some (known m) ↔
      a.toNat * volume sizes = m.toNat ∧ ∀ k, a.toNat * volume (sizes.take k) < UInt64.size := by
  induction sizes generalizing a with
  | nil =>
    have hone : ∀ k, a.toNat * volume (([] : List UInt64).take k) < UInt64.size := by
      intro k
      rw [List.take_nil]
      exact (Nat.mul_one _).trans_lt (UInt64.toNat_lt a)
    rw [and_iff_left hone]
    simp [volume, UInt64.toNat_inj]
  | cons n sizes ih =>
    rw [leading_cons_iff, volume_cons, ← Nat.mul_assoc, List.map_cons, List.foldlM_cons]
    change (ofNat? (a.toNat * n.toNat)).bind _ = _ ↔ _
    cases hstep : ofNat? (a.toNat * n.toNat) with
    | none =>
      -- the very next leading product is no word
      refine iff_of_false (by simp) fun h => ?_
      have hnext := h.2 0
      rw [List.take_zero] at hnext
      exact absurd ((Nat.mul_one _).symm.trans_lt hnext)
        (Nat.not_lt.2 ((ofNat?_eq_none_iff _).1 hstep))
    | some c =>
      obtain ⟨b, hb, rfl⟩ := (ofNat?_eq_some_iff _ _).1 hstep
      rw [Option.bind_some, ih, hb]

/-- **An unknown dimension leaves the product unknown**, wherever it stands. -/
theorem foldlM_mul?_of_unknown_mem (h : unknown ∈ ds) (a : Dim) :
    (ds.foldlM mul? a).getD unknown = unknown := by
  induction ds generalizing a with
  | nil => cases h
  | cons d rest ih =>
    rw [List.foldlM_cons, Option.bind_eq_bind]
    rcases List.mem_cons.1 h with rfl | h
    · rw [mul?_unknown, Option.bind_some, foldlM_mul?_unknown, Option.getD_some]
    · cases a.mul? d with
      | none => rfl
      | some b => exact ih h b

end Dim

namespace Shape

variable {x : Shape} {m : UInt64}

theorem product?_ofSizes_eq_known_iff {sizes : List UInt64} :
    (ofSizes sizes).product? = some (.known m) ↔
      volume sizes = m.toNat ∧ ∀ k, volume (sizes.take k) < UInt64.size := by
  change (sizes.map Dim.known).foldlM Dim.mul? (.known 1) = _ ↔ _
  simp only [Dim.foldlM_mul?_known_iff, UInt64.toNat_one, Nat.one_mul]

/-- **A product that is found is exact**, whatever the dimensions are. -/
theorem hasVolume_of_product? (h : x.product? = some (.known m)) : x.HasVolume m.toNat := by
  have hknown : .unknown ∉ x.dims := by
    intro hmem
    have hlost := Dim.foldlM_mul?_of_unknown_mem hmem (.known 1)
    rw [product?] at h
    rw [h] at hlost
    cases hlost
  obtain ⟨_, sizes, rfl, -⟩ := exists_hasVolume_iff.2 hknown
  exact ⟨sizes, rfl, (product?_ofSizes_eq_known_iff.1 h).1⟩

/-- **Without a dimension of 0 every product is found** that is a word: its leading products are no
greater. -/
theorem product?_eq_known_iff (hx : x.NoZero) :
    x.product? = some (.known m) ↔ x.HasVolume m.toNat := by
  refine ⟨hasVolume_of_product?, ?_⟩
  rintro ⟨sizes, rfl, hvolume⟩
  have hpos : ∀ n ∈ sizes, 0 < n := by
    intro n hn
    refine UInt64.pos_iff_ne_zero.2 ?_
    rintro rfl
    exact hx (List.mem_map_of_mem hn)
  refine product?_ofSizes_eq_known_iff.2 ⟨hvolume, fun k => ?_⟩
  exact ((volume_take_le hpos k).trans_eq hvolume).trans_lt (UInt64.toNat_lt m)

end Shape

/-! ## Flattening -/

namespace Rule

variable {x y : Shape} {m : UInt64}

theorem flatten_eq_known_iff : flatten x = ⟨[.known m]⟩ ↔ x.product? = some (.known m) := by
  cases h : x.product? <;> simp [flatten, h]

theorem flatten_known_or_unknown (x : Shape) :
    (∃ m, flatten x = ⟨[.known m]⟩) ∨ flatten x = ⟨[.unknown]⟩ := by
  cases h : x.product?.getD .unknown with
  | known m => exact Or.inl ⟨m, by rw [flatten, h]⟩
  | unknown => exact Or.inr (by rw [flatten, h])

/-- **When a product is lost**: a dimension is unknown, or the exact product is no word. -/
theorem flatten_eq_unknown_iff (hx : x.NoZero) :
    flatten x = ⟨[.unknown]⟩ ↔ .unknown ∈ x.dims ∨ ∃ n, x.HasVolume n ∧ 2 ^ 64 ≤ n := by
  have hfound : ∀ m, flatten x = ⟨[.known m]⟩ ↔ x.HasVolume m.toNat := fun m =>
    flatten_eq_known_iff.trans (Shape.product?_eq_known_iff hx)
  by_cases hmem : .unknown ∈ x.dims
  · refine iff_of_true ?_ (Or.inl hmem)
    rw [flatten, Shape.product?, Dim.foldlM_mul?_of_unknown_mem hmem]
  · obtain ⟨n, hn⟩ := Shape.exists_hasVolume_iff.2 hmem
    by_cases hlarge : 2 ^ 64 ≤ n
    · refine iff_of_true ?_ (Or.inr ⟨n, hn, hlarge⟩)
      refine (flatten_known_or_unknown x).resolve_left ?_
      rintro ⟨m, hm⟩
      have heq := hn.unique ((hfound m).1 hm)
      exact absurd (heq ▸ UInt64.toNat_lt m) (Nat.not_lt.2 hlarge)
    · have hword : (UInt64.ofNatLT n (Nat.not_le.1 hlarge)).toNat = n := UInt64.toNat_ofNatLT
      have hm := (hfound (UInt64.ofNatLT n (Nat.not_le.1 hlarge))).2 (hword.symm ▸ hn)
      rw [hm]
      refine iff_of_false (by simp) ?_
      rintro (h | ⟨n', hn', hle⟩)
      · exact hmem h
      · exact hlarge (hn.unique hn' ▸ hle)

/-- **The order of the dimensions does not matter**, if none of them is 0. -/
theorem flatten_perm (hx : x.NoZero) (h : x.dims.Perm y.dims) : flatten y = flatten x := by
  have hy : y.NoZero := fun hmem => hx (h.mem_iff.2 hmem)
  rcases flatten_known_or_unknown x with ⟨m, hm⟩ | hlost
  · have hvolume := (Shape.product?_eq_known_iff hx).1 (flatten_eq_known_iff.1 hm)
    rw [hm]
    exact flatten_eq_known_iff.2 ((Shape.product?_eq_known_iff hy).2 (hvolume.perm h))
  · rw [hlost, flatten_eq_unknown_iff hy]
    refine ((flatten_eq_unknown_iff hx).1 hlost).imp h.mem_iff.1 ?_
    rintro ⟨n, hn, hlarge⟩
    exact ⟨n, hn.perm h, hlarge⟩

/-- Beside a 0 the order does matter: the product is lost before the 0 is met. -/
example : flatten ⟨[.known 0, .known 0x8000000000000000, .known 2]⟩ = ⟨[.known 0]⟩ ∧
    flatten ⟨[.known 0x8000000000000000, .known 2, .known 0]⟩ = ⟨[.unknown]⟩ := by
  decide

end Rule

namespace Block

/-- **Flattening is exact.** A connected block makes one dimension of all, whatever its parameters
are. If no dimension is 0, this is the exact product iff all dimensions are known and the product
is a word, it is unknown in all other cases, and the order of the dimensions does not matter. A
product that is reported is exact even beside a 0. -/
theorem flattening_is_exact :
    (∀ params inputs x, inputs.first? defaultInput = some x →
      flatten.outputShape params inputs = .ok (Rule.flatten x)) ∧
    (∀ x : Shape, x.NoZero →
      (∀ m : UInt64, Rule.flatten x = ⟨[.known m]⟩ ↔ x.HasVolume m.toNat) ∧
      (Rule.flatten x = ⟨[.unknown]⟩ ↔ .unknown ∈ x.dims ∨ ∃ n, x.HasVolume n ∧ 2 ^ 64 ≤ n) ∧
      ∀ y : Shape, x.dims.Perm y.dims → Rule.flatten y = Rule.flatten x) ∧
    (∀ (x : Shape) (m : UInt64), Rule.flatten x = ⟨[.known m]⟩ → x.HasVolume m.toNat) ∧
    Rule.flatten ⟨[]⟩ = ⟨[.known 1]⟩ := by
  refine ⟨fun params inputs x hfirst => ?_, fun x hx => ⟨fun m => ?_, ?_, fun y => ?_⟩, ?_, rfl⟩
  · rw [outputShape_of_first? rfl (Param.conforms_iff.2 rfl) hfirst, rule, Rule.single, hfirst]
    rfl
  · exact Rule.flatten_eq_known_iff.trans (Shape.product?_eq_known_iff hx)
  · exact Rule.flatten_eq_unknown_iff hx
  · exact Rule.flatten_perm hx
  · exact fun x m h => Shape.hasVolume_of_product? (Rule.flatten_eq_known_iff.1 h)

/-- An image of 1 × 28 × 28 is flattened to 784. The two greatest powers of two among words whose
product is no word are lost, in front of a further dimension as behind it. -/
theorem flattening_is_exact_images :
    Rule.flatten ⟨[.known 1, .known 28, .known 28]⟩ = ⟨[.known 784]⟩ ∧
    Rule.flatten ⟨[.known 0x8000000000000000, .known 2, .known 3]⟩ = ⟨[.unknown]⟩ ∧
    Rule.flatten ⟨[.known 3, .known 2, .known 0x8000000000000000]⟩ = ⟨[.unknown]⟩ ∧
    Rule.flatten ⟨[.known 3, .unknown]⟩ = ⟨[.unknown]⟩ := by
  obtain ⟨-, hexact, -⟩ := flattening_is_exact
  obtain ⟨hfound, -⟩ := hexact ⟨[.known 1, .known 28, .known 28]⟩ (show Dim.known 0 ∉ _ by decide)
  obtain ⟨-, hlost, hperm⟩ := hexact ⟨[.known 0x8000000000000000, .known 2, .known 3]⟩
    (show Dim.known 0 ∉ _ by decide)
  obtain ⟨-, hopen, -⟩ := hexact ⟨[.known 3, .unknown]⟩ (show Dim.known 0 ∉ _ by decide)
  have hlarge := hlost.2 (Or.inr ⟨_, ⟨[0x8000000000000000, 2, 3], rfl, rfl⟩, by decide +kernel⟩)
  refine ⟨(hfound 784).2 ⟨[1, 28, 28], rfl, by decide +kernel⟩, hlarge, ?_, ?_⟩
  · rw [hperm ⟨[.known 3, .known 2, .known 0x8000000000000000]⟩ (by decide), hlarge]
  · exact hopen.2 (Or.inl (by decide))

end Block

end ShapeFlow
