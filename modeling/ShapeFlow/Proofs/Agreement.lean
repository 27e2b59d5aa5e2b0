import ShapeFlow.Proofs.Merge
import Mathlib.Algebra.GroupWithZero.Nat
import Mathlib.Data.List.GetD

/-!
# Merging in closed form

What a merge of shapes gives, said of all of its inputs at once and not of the fold that computes
it.

* `Shape.Agree`: shapes of one rank with compatible dimensions, but for the axis.
* `Shape.merged`: the dimensions that are known of any of them, and at the axis the sum.
* `Shape.joins_iff_agree`, `Rule.lays_iff_agree`: **shapes are merged iff they agree**, and to this
  shape.
* `Rule.mergeFrom_eq_error_iff_misfit`: **a merge fails at the least position up to which its inputs
  do not agree.**
-/

namespace ShapeFlow

open List

/-! ## Dimensions -/

namespace Dim

variable {a b c d : Dim} {ds : List Dim}

/-- The size, if it is known. -/
def size? : Dim → Option Nat
  | known n => some n.toNat
  | unknown => none

/-- The dimension that is known first. -/
def common (ds : List Dim) : Dim := (ds.find? (· != unknown)).getD unknown

/-- The exact sum, if all dimensions are known and it is a word. -/
def total (ds : List Dim) : Dim := ((ds.mapM size?).bind fun sizes => ofNat? sizes.sum).getD unknown

/-- Dimensions are compatible iff they can be the same. -/
theorem compatible_iff_admits : a.compatible b = true ↔ ∃ d, a.Admits d ∧ b.Admits d := by
  cases a with
  | unknown => exact ⟨fun _ => ⟨b, unknown_admits b, admits_refl b⟩, fun _ => rfl⟩
  | known m =>
    cases b with
    | unknown => exact ⟨fun _ => ⟨known m, admits_refl _, unknown_admits _⟩, fun _ => rfl⟩
    | known n =>
      simp only [compatible, beq_iff_eq, known_admits_iff]
      constructor
      · rintro rfl
        exact ⟨known m, rfl, rfl⟩
      · rintro ⟨_, rfl, h⟩
        exact known.inj h

/-- Among compatible dimensions the first known one stands for all. -/
theorem common_admits_iff (h : ∀ a ∈ ds, ∀ b ∈ ds, a.compatible b = true) :
    (common ds).Admits d ↔ ∀ a ∈ ds, a.Admits d := by
  unfold common
  cases hfound : ds.find? (· != unknown) with
  | none =>
    have hopen : ∀ a ∈ ds, a = unknown := by simpa using hfound
    refine ⟨fun _ a ha => ?_, fun _ => unknown_admits d⟩
    rw [hopen a ha]
    exact unknown_admits d
  | some c =>
    have hc : c ∈ ds := List.mem_of_find?_eq_some hfound
    have hknown : c ≠ unknown := by simpa using List.find?_some hfound
    rw [Option.getD_some]
    refine ⟨fun hcd a ha => ?_, fun hall => hall c hc⟩
    obtain ⟨e, hae, hce⟩ := compatible_iff_admits.1 (h a ha c hc)
    -- what a known dimension admits is this dimension
    obtain rfl := hce.resolve_left hknown
    exact hae.trans hcd

/-- Partial sums that are too large do not matter: adding up gives the exact sum, if it is a
word. -/
theorem foldl_plus_known (n : UInt64) (ds : List Dim) :
    ds.foldl plus (known n) =
      ((ds.mapM size?).bind fun sizes => ofNat? (n.toNat + sizes.sum)).getD unknown := by
  have hlost : ∀ ds : List Dim, ds.foldl plus unknown = unknown := by
    intro ds
    induction ds with
    | nil => rfl
    | cons d rest ih => rwa [List.foldl_cons, unknown_plus]
  induction ds generalizing n with
  | nil =>
    have hword : ofNat? n.toNat = some (known n) := (ofNat?_eq_some_iff _ _).2 ⟨n, rfl, rfl⟩
    simp [hword]
  | cons d rest ih =>
    rw [List.foldl_cons, List.mapM_cons]
    cases d with
    | unknown => rw [plus_unknown, hlost]; rfl
    | known m =>
      rw [plus_known]
      cases hsum : ofNat? (n.toNat + m.toNat) with
      | some c =>
        obtain ⟨k, hk, rfl⟩ := (ofNat?_eq_some_iff _ _).1 hsum
        rw [Option.getD_some, ih k, hk]
        cases rest.mapM size? <;> simp [size?, Nat.add_assoc]
      | none =>
        rw [Option.getD_none, hlost]
        rw [ofNat?_eq_none_iff] at hsum
        cases rest.mapM size? with
        | none => rfl
        | some sizes =>
          have hlarge : ofNat? (n.toNat + (m.toNat + sizes.sum)) = none :=
            (ofNat?_eq_none_iff _).2 (by omega)
          simp [size?, hlarge]

theorem foldl_plus_eq_total (ds : List Dim) : ds.foldl plus (known 0) = total ds := by
  rw [foldl_plus_known]
  simp [total]

end Dim

/-! ## Shapes -/

namespace Shape

variable {shapes others : List Shape} {first x y : Shape} {axis i : Nat} {axis? : Option Nat}

theorem entry_of_rank_le (h : x.rank ≤ i) : x.entry i = .unknown := by
  rw [entry, List.getD_eq_default _ _ h]

/-- The order of information, position by position. -/
theorem admits_iff_entry :
    x.Admits y ↔ x.rank = y.rank ∧ ∀ i, (x.entry i).Admits (y.entry i) := by
  unfold Admits
  rw [forall₂_iff_get]
  refine and_congr_right fun hrank => ⟨fun h i => ?_, fun h i hx hy => ?_⟩
  · by_cases hi : i < x.dims.length
    · have hi' : i < y.dims.length := hrank ▸ hi
      rw [entry, entry, List.getD_eq_getElem _ _ hi, List.getD_eq_getElem _ _ hi']
      exact h i hi hi'
    · rw [entry_of_rank_le (Nat.le_of_not_lt hi)]
      exact Dim.unknown_admits _
  · have hadmits := h i
    rwa [entry, entry, List.getD_eq_getElem _ _ hx, List.getD_eq_getElem _ _ hy] at hadmits

theorem ext_entry (hrank : x.rank = y.rank) (h : ∀ i, x.entry i = y.entry i) : x = y := by
  have hxy : x.Admits y := admits_iff_entry.2 ⟨hrank, fun i => h i ▸ Dim.admits_refl _⟩
  have hyx : y.Admits x := admits_iff_entry.2 ⟨hrank.symm, fun i => h i ▸ Dim.admits_refl _⟩
  exact hxy.antisymm hyx

theorem entry_opened_of_ne (h : i ≠ axis) : (x.opened axis).entry i = x.entry i := by
  simp [opened, entry, List.getElem?_set_ne h.symm]

/-- Shapes of one rank whose dimensions are compatible at every position but the axis. -/
def Agree (axis? : Option Nat) (shapes : List Shape) : Prop :=
  ∀ s ∈ shapes, ∀ t ∈ shapes, s.rank = t.rank ∧
    ∀ i < s.rank, axis? ≠ some i → (s.entry i).compatible (t.entry i) = true

instance (axis? : Option Nat) (shapes : List Shape) : Decidable (Agree axis? shapes) :=
  inferInstanceAs (Decidable (∀ s ∈ shapes, ∀ t ∈ shapes, s.rank = t.rank ∧
    ∀ i < s.rank, axis? ≠ some i → (s.entry i).compatible (t.entry i) = true))

theorem Agree.of_subset (h : Agree axis? others) (hsub : shapes ⊆ others) : Agree axis? shapes :=
  fun s hs t ht => h s (hsub hs) t (hsub ht)

theorem Agree.compatible (h : Agree axis? shapes) {s t : Shape} (hs : s ∈ shapes) (ht : t ∈ shapes)
    (hi : axis? ≠ some i) : (s.entry i).compatible (t.entry i) = true := by
  by_cases hlt : i < s.rank
  · exact (h s hs t ht).2 i hlt hi
  · rw [entry_of_rank_le (Nat.le_of_not_lt hlt)]
    rfl

theorem agree_singleton (axis? : Option Nat) (x : Shape) : Agree axis? [x] := by
  intro s hs t ht
  obtain rfl := List.mem_singleton.1 hs
  obtain rfl := List.mem_singleton.1 ht
  exact ⟨rfl, fun i _ _ => Dim.compatible_iff_admits.2 ⟨_, Dim.admits_refl _, Dim.admits_refl _⟩⟩

/-- What shapes that agree are merged to: at every position the dimension that is known of any of
them, and at the axis their sum. -/
def merged (axis? : Option Nat) (shapes : List Shape) : Shape :=
  ⟨(List.range (shapes.head?.elim 0 rank)).map fun i =>
    if axis? = some i then Dim.total (shapes.map (entry i)) else Dim.common (shapes.map (entry i))⟩

theorem rank_merged (axis? : Option Nat) (first : Shape) (rest : List Shape) :
    (merged axis? (first :: rest)).rank = first.rank := by
  simp [merged]

theorem entry_merged {rest : List Shape} (h : i < first.rank) :
    (merged axis? (first :: rest)).entry i =
      if axis? = some i then Dim.total ((first :: rest).map (entry i))
      else Dim.common ((first :: rest).map (entry i)) := by
  rw [entry, List.getD_eq_getElem _ _ (by simpa [merged] using h)]
  simp [merged]

/-- **Shapes join iff they agree**, to the dimensions that are known of any of them. -/
theorem joins_iff_agree (hne : shapes ≠ []) :
    Joins shapes x ↔ Agree none shapes ∧ x = merged none shapes := by
  obtain ⟨first, rest, rfl⟩ := List.exists_cons_of_ne_nil hne
  have hmerged : Agree none (first :: rest) →
      Joins (first :: rest) (merged none (first :: rest)) := by
    intro h y
    have hcommon : ∀ i, ((merged none (first :: rest)).entry i).Admits (y.entry i) ↔
        ∀ s ∈ first :: rest, (s.entry i).Admits (y.entry i) := by
      intro i
      by_cases hi : i < first.rank
      · rw [entry_merged hi, if_neg (Option.some_ne_none i).symm, Dim.common_admits_iff,
          List.forall_mem_map]
        rw [List.forall_mem_map]
        intro s hs
        rw [List.forall_mem_map]
        exact fun t ht => h.compatible hs ht (Option.some_ne_none i).symm
      · have hopen : ∀ s ∈ first :: rest, s.entry i = .unknown := by
          intro s hs
          refine entry_of_rank_le ?_
          rw [(h s hs first List.mem_cons_self).1]
          exact Nat.le_of_not_lt hi
        rw [entry_of_rank_le (by rw [rank_merged]; exact Nat.le_of_not_lt hi)]
        refine ⟨fun _ s hs => ?_, fun _ => Dim.unknown_admits _⟩
        rw [hopen s hs]
        exact Dim.unknown_admits _
    simp only [admits_iff_entry, hcommon, rank_merged]
    constructor
    · rintro ⟨hrank, hentries⟩ s hs
      exact ⟨((h s hs first List.mem_cons_self).1).trans hrank, fun i => hentries i s hs⟩
    · intro hall
      exact ⟨(hall first List.mem_cons_self).1, fun i s hs => (hall s hs).2 i⟩
  constructor
  · intro hx
    have hagree : Agree none (first :: rest) := by
      intro s hs t ht
      obtain ⟨hrank, hs⟩ := admits_iff_entry.1 (hx.admits hs)
      obtain ⟨hrank', ht⟩ := admits_iff_entry.1 (hx.admits ht)
      exact ⟨hrank.trans hrank'.symm,
        fun i _ _ => Dim.compatible_iff_admits.2 ⟨x.entry i, hs i, ht i⟩⟩
    exact ⟨hagree, hx.unique (hmerged hagree)⟩
  · rintro ⟨hagree, rfl⟩
    exact hmerged hagree

/-- Shapes agree but for an axis iff they agree with it left open. -/
theorem agree_map_opened :
    Agree none (shapes.map (opened axis)) ↔ Agree (some axis) shapes := by
  unfold Agree
  simp only [List.forall_mem_map, rank_opened]
  refine forall₂_congr fun s _ => forall₂_congr fun t _ => and_congr_right fun _ => ?_
  refine forall₂_congr fun i _ => ?_
  by_cases hi : i = axis
  · subst hi
    simp [Dim.compatible]
  · simp [entry_opened_of_ne hi, Ne.symm hi]

theorem opened_merged (axis : Nat) (first : Shape) (rest : List Shape) :
    (merged (some axis) (first :: rest)).opened axis =
      merged none ((first :: rest).map (opened axis)) := by
  rw [List.map_cons]
  refine ext_entry ?_ fun i => ?_
  · rw [rank_opened, rank_merged, rank_merged, rank_opened]
  · by_cases hi : i < first.rank
    · rw [entry_merged (by rwa [rank_opened]), if_neg (Option.some_ne_none i).symm]
      by_cases haxis : i = axis
      · subst haxis
        have hopen : ((first.opened i :: rest.map (opened i)).map (entry i)).find?
            (· != .unknown) = none := by
          simp
        rw [entry_opened, Dim.common, hopen]
        rfl
      · rw [entry_opened_of_ne haxis, entry_merged hi, if_neg (by simpa using Ne.symm haxis)]
        simp [Function.comp_def, entry_opened_of_ne haxis]
    · have hle := Nat.le_of_not_lt hi
      rw [entry_of_rank_le (by rw [rank_opened, rank_merged]; exact hle),
        entry_of_rank_le (by rw [rank_merged, rank_opened]; exact hle)]

/-- The first shape that does not agree with those before it, and its position. -/
def FirstMisfit (axis? : Option Nat) (shapes : List Shape) (i : Nat) (x : Shape) : Prop :=
  shapes[i]? = some x ∧ (∀ j < i, Agree axis? (shapes.take (j + 1))) ∧
    ¬ Agree axis? (shapes.take (i + 1))

instance (axis? : Option Nat) (shapes : List Shape) (i : Nat) (x : Shape) :
    Decidable (FirstMisfit axis? shapes i x) :=
  inferInstanceAs (Decidable (shapes[i]? = some x ∧
    (∀ j < i, Agree axis? (shapes.take (j + 1))) ∧ ¬ Agree axis? (shapes.take (i + 1))))

end Shape

/-! ## Merges -/

namespace Rule

variable {axis : Nat} {axis? : Option Nat} {merge? : List Dim → List Dim → Option (List Dim)}
  {mismatch : Shape → ShapeError} {position : Nat} {merged : List Dim} {first out : Shape}
  {rest : List Shape} {f : Failure} {inputs : Inputs} {settings : Settings}

/-- **Shapes are laid end to end iff they agree but for the axis**, and along it they are added. -/
theorem lays_iff_agree (haxis : axis < first.rank) : Lays axis (first :: rest) out ↔
    Shape.Agree (some axis) (first :: rest) ∧ out = Shape.merged (some axis) (first :: rest) := by
  have hne : (first :: rest).map (Shape.opened axis) ≠ [] := by simp
  have hentry : (Shape.merged (some axis) (first :: rest)).entry axis =
      ((first :: rest).map (Shape.entry axis)).foldl Dim.plus (.known 0) := by
    rw [Shape.entry_merged haxis, if_pos rfl, Dim.foldl_plus_eq_total]
  constructor
  · intro h
    obtain ⟨hagree, hopened⟩ := (Shape.joins_iff_agree hne).1 h.opened
    rw [← Shape.opened_merged] at hopened
    exact ⟨Shape.agree_map_opened.1 hagree,
      Shape.eq_of_opened axis hopened (h.entry.trans hentry.symm)⟩
  · rintro ⟨hagree, rfl⟩
    refine ⟨(Shape.joins_iff_agree hne).2 ⟨Shape.agree_map_opened.2 hagree, ?_⟩, hentry⟩
    exact Shape.opened_merged axis first rest

/-- **Where a merge fails**: its inputs can be merged up to the position, and not behind it. -/
theorem mergeFrom_eq_error_iff :
    mergeFrom merge? mismatch position merged rest = .error f ↔ ∃ i x, rest[i]? = some x ∧
      f = .atPosition Block.defaultInput (position + i) (mismatch x) ∧
      (∃ out, mergeFrom merge? mismatch position merged (rest.take i) = .ok out) ∧
      ¬ ∃ out, mergeFrom merge? mismatch position merged (rest.take (i + 1)) = .ok out := by
  induction rest generalizing position merged with
  | nil => simp [mergeFrom]
  | cons s rest ih =>
    cases hmerge : merge? merged s.dims with
    | none =>
      simp only [mergeFrom, hmerge]
      constructor
      · intro h
        exact ⟨0, s, rfl, (Except.error.inj h).symm, ⟨⟨merged⟩, rfl⟩, by simp [mergeFrom, hmerge]⟩
      · rintro ⟨i, x, hx, rfl, hbefore, -⟩
        cases i with
        | zero =>
          obtain rfl := Option.some.inj hx
          rfl
        | succ i => simp [mergeFrom, hmerge] at hbefore
    | some m =>
      simp only [mergeFrom, hmerge, ih]
      constructor
      · rintro ⟨i, x, hx, rfl, hbefore, hnot⟩
        refine ⟨i + 1, x, hx, by rw [Nat.add_right_comm, Nat.add_assoc], ?_, ?_⟩
        · simpa [mergeFrom, hmerge] using hbefore
        · simpa [mergeFrom, hmerge] using hnot
      · rintro ⟨i, x, hx, rfl, hbefore, hnot⟩
        cases i with
        | zero => simp [mergeFrom, hmerge] at hnot
        | succ i =>
          refine ⟨i, x, hx, by rw [Nat.add_right_comm, Nat.add_assoc], ?_, ?_⟩
          · simpa [mergeFrom, hmerge] using hbefore
          · simpa [mergeFrom, hmerge] using hnot

/-- **A merge fails at the least position up to which its inputs do not agree**, if agreement is
what it asks of them. -/
theorem mergeFrom_eq_error_iff_misfit (hagree : ∀ rest, (∃ out,
      mergeFrom merge? mismatch 1 first.dims rest = .ok out) ↔ Shape.Agree axis? (first :: rest)) :
    mergeFrom merge? mismatch 1 first.dims rest = .error f ↔
      ∃ i x, Shape.FirstMisfit axis? (first :: rest) i x ∧
        f = .atPosition Block.defaultInput i (mismatch x) := by
  simp only [mergeFrom_eq_error_iff, hagree]
  constructor
  · rintro ⟨i, x, hx, rfl, hbefore, hnot⟩
    refine ⟨i + 1, x, ⟨hx, fun j hj => hbefore.of_subset ?_, hnot⟩, by rw [Nat.add_comm]⟩
    rw [List.take_succ_cons]
    refine List.cons_subset_cons _ fun s hs => ?_
    exact List.take_subset_take_left rest (Nat.le_of_lt_succ hj) hs
  · rintro ⟨i, x, ⟨hx, hbefore, hnot⟩, rfl⟩
    cases i with
    | zero => exact absurd (Shape.agree_singleton axis? first) hnot
    | succ i => exact ⟨i, x, hx, by rw [Nat.add_comm], hbefore i (Nat.lt_succ_self i), hnot⟩

end Rule

end ShapeFlow
