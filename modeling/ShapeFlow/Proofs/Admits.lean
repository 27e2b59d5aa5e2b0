import ShapeFlow.Proofs.Outcome
import Mathlib.Data.List.Forall2

/-!
# What unknown dimensions leave open

* `Dim.Admits`, `Shape.Admits`, `Inputs.Admits`: the order of information. An unknown dimension
  admits every dimension, a known one only itself.
* `Dim.fill`, `Shape.fill`, `Inputs.fill`: every unknown dimension is set to a size that depends on
  its position.
* `Covers`: an outcome that succeeds whenever another does, with a result that admits its result.
* `Inputs.Admits.all`: the order of information on inputs, handle by handle.
-/

namespace ShapeFlow

open List

/-! ## Dimensions -/

namespace Dim

variable {a b c : Dim} {n : UInt64}

/-- A dimension leaves it open to be another: it is unknown, or it is that one. -/
def Admits (a b : Dim) : Prop := a = .unknown ∨ a = b

@[refl, simp] theorem admits_refl (a : Dim) : a.Admits a := Or.inr rfl

instance : Std.Refl Admits := ⟨admits_refl⟩

/-- What is open admits every dimension. -/
theorem unknown_admits (a : Dim) : unknown.Admits a := Or.inl rfl

/-- A known size admits itself only. -/
@[simp] theorem known_admits_iff : (known n).Admits a ↔ a = known n := by
  simp [Admits, eq_comm]

theorem Admits.trans (hab : a.Admits b) (hbc : b.Admits c) : a.Admits c := by
  rcases hab with rfl | rfl
  · exact unknown_admits c
  · exact hbc

theorem Admits.antisymm (hab : a.Admits b) (hba : b.Admits a) : a = b := by
  rcases hab with rfl | rfl
  · rcases hba with h | h
    · exact h.symm
    · exact h.symm
  · rfl

/-- Sets the dimension if it is unknown. -/
def fill (n : UInt64) : Dim → Dim
  | unknown => known n
  | known m => known m

@[simp] theorem fill_unknown (n : UInt64) : unknown.fill n = known n := rfl

@[simp] theorem fill_known (n m : UInt64) : (known m).fill n = known m := rfl

/-- What is admitted is filled alike, if the size is the one that is already known. -/
theorem Admits.fill_eq (h : a.Admits b) (hn : ∀ m, b = known m → m = n) : a.fill n = b.fill n := by
  rcases h with rfl | rfl
  · cases b with
    | unknown => rfl
    | known m => rw [fill_unknown, fill_known, hn m rfl]
  · rfl

end Dim

/-! ## Shapes -/

/-- The order of information on shapes of one rank, position by position. -/
def Shape.Admits (x y : Shape) : Prop := Forall₂ Dim.Admits x.dims y.dims

namespace Shape

variable {x y z : Shape} {i : Nat} {n : UInt64}

theorem admits_refl (x : Shape) : x.Admits x := forall₂_refl x.dims

theorem forall₂_admits_trans : ∀ {as bs cs : List Dim}, Forall₂ Dim.Admits as bs →
    Forall₂ Dim.Admits bs cs → Forall₂ Dim.Admits as cs
  | _, _, _, .nil, .nil => .nil
  | _, _, _, .cons h hs, .cons k ks => .cons (h.trans k) (forall₂_admits_trans hs ks)

theorem Admits.trans (hxy : x.Admits y) (hyz : y.Admits z) : x.Admits z :=
  forall₂_admits_trans hxy hyz

theorem Admits.antisymm (hxy : x.Admits y) (hyx : y.Admits x) : x = y := by
  obtain ⟨as⟩ := x
  obtain ⟨bs⟩ := y
  refine congrArg Shape.mk ?_
  have h : Forall₂ Dim.Admits as bs := hxy
  have k : Forall₂ Dim.Admits bs as := hyx
  clear hxy hyx
  induction h with
  | nil => rfl
  | cons hab _ ih =>
    cases k with
    | cons hba hrest => rw [hab.antisymm hba, ih hrest]

/-- The number of dimensions is never open. -/
theorem Admits.rank_eq (h : x.Admits y) : x.rank = y.rank := h.length_eq

/-- What all shapes of a list admit, those that leave more open admit as well. -/
theorem forall_admits_of_forall₂ {shapes others : List Shape} (h : Forall₂ Admits shapes others)
    (hothers : ∀ t ∈ others, t.Admits z) : ∀ s ∈ shapes, s.Admits z := by
  induction h with
  | nil => exact hothers
  | cons hst _ ih =>
    rw [List.forall_mem_cons] at hothers ⊢
    exact ⟨hst.trans hothers.1, ih hothers.2⟩

/-- What is known of a shape is known of every shape that it admits. -/
theorem Admits.dim? (h : x.Admits y) (hx : x.dim? i = some (.known n)) :
    y.dim? i = some (.known n) := by
  unfold Shape.dim? at hx ⊢
  obtain ⟨hi, hx⟩ := List.getElem?_eq_some_iff.1 hx
  have hi' : i < y.dims.length := h.length_eq ▸ hi
  have hadmits : (x.dims[i]).Admits y.dims[i] := h.get hi hi'
  rw [hx, Dim.known_admits_iff] at hadmits
  rw [List.getElem?_eq_getElem hi', hadmits]

theorem Admits.last? (h : x.Admits y) {d : Dim} (hy : y.last? = some d) :
    ∃ a, x.last? = some a ∧ a.Admits d := by
  have hreverse : Forall₂ Dim.Admits x.dims.reverse y.dims.reverse := forall₂_reverse_iff.2 h
  unfold Shape.last? at hy ⊢
  rw [List.getLast?_eq_head?_reverse] at hy ⊢
  generalize x.dims.reverse = as at hreverse ⊢
  generalize y.dims.reverse = bs at hreverse hy
  cases hreverse with
  | nil => cases hy
  | cons had _ =>
    cases hy
    exact ⟨_, rfl, had⟩

theorem Admits.withLast (h : x.Admits y) (d : Dim) : (x.withLast d).Admits (y.withLast d) := by
  unfold Shape.Admits Shape.withLast
  rw [List.dropLast_eq_take, List.dropLast_eq_take, h.length_eq]
  exact rel_append (forall₂_take _ h) (.cons (Dim.admits_refl d) .nil)

/-- Sets every unknown dimension to the size for its position. -/
def fill (size : Nat → UInt64) (x : Shape) : Shape :=
  ⟨x.dims.mapIdx fun i d => d.fill (size i)⟩

/-- The trailing dimension is filled with the size at its own position. -/
theorem last?_fill (size : Nat → UInt64) (x : Shape) :
    (x.fill size).last? = x.last?.map (Dim.fill (size (x.rank - 1))) := by
  rw [Shape.last?, fill, List.getLast?_mapIdx]
  rfl

theorem rank_fill (size : Nat → UInt64) (x : Shape) : (x.fill size).rank = x.rank :=
  List.length_mapIdx

/-- What is admitted is filled alike, if the sizes are those that are already known. -/
theorem Admits.fill_eq {size : Nat → UInt64} (h : x.Admits y)
    (hsize : ∀ i n, y.dim? i = some (.known n) → n = size i) : x.fill size = y.fill size := by
  refine congrArg Shape.mk (List.ext_getElem ?_ fun i hi hi' => ?_)
  · rw [List.length_mapIdx, List.length_mapIdx, h.length_eq]
  · rw [List.length_mapIdx] at hi hi'
    rw [List.getElem_mapIdx, List.getElem_mapIdx]
    refine Dim.Admits.fill_eq (h.get hi hi') fun n hn => hsize i n ?_
    exact (List.getElem?_eq_getElem hi').trans (congrArg some hn)

end Shape

/-! ## Outcomes -/

/-- An outcome succeeds whenever another does, with a result that is related to its result. -/
def Covers {α β : Type} (R : α → β → Prop) (x : Outcome α) (y : Outcome β) : Prop :=
  ∀ b, y = .ok b → ∃ a, x = .ok a ∧ R a b

section Covers

variable {α β γ δ : Type} {R : α → β → Prop} {S : γ → δ → Prop} {x : Outcome α} {y : Outcome β}

/-- An answer is covered by a related answer. -/
theorem covers_ok {a : α} {b : β} (h : R a b) :
    Covers R (.ok a : Outcome α) (.ok b : Outcome β) := by
  rintro _ ⟨⟩
  exact ⟨a, rfl, h⟩

/-- Nothing has to cover a failure. -/
theorem covers_error (f : Failure) : Covers R x (.error f : Outcome β) := by
  intro b h
  cases h

theorem covers_refl {R : α → α → Prop} (hR : ∀ a, R a a) (x : Outcome α) : Covers R x x :=
  fun a h => ⟨a, h, hR a⟩

/-- **Steps that are covered one by one are covered in a row.** -/
theorem covers_bind {next : α → Outcome γ} {next' : β → Outcome δ} (hx : Covers R x y)
    (hnext : ∀ a b, R a b → Covers S (next a) (next' b)) : Covers S (x >>= next) (y >>= next') := by
  intro d h
  obtain ⟨b, hb, hd⟩ := bind_eq_ok_iff.1 h
  obtain ⟨a, ha, hab⟩ := hx b hb
  obtain ⟨c, hc, hcd⟩ := hnext a b hab d hd
  exact ⟨c, bind_eq_ok_iff.2 ⟨a, ha, hc⟩, hcd⟩

/-- Reading the parameters does not depend on shapes. -/
theorem covers_bind_same {next : α → Outcome γ} {next' : α → Outcome δ}
    (hnext : ∀ a, Covers S (next a) (next' a)) : Covers S (x >>= next) (x >>= next') := by
  refine covers_bind (covers_refl (fun _ => rfl) x) ?_
  rintro a _ rfl
  exact hnext a

theorem covers_map {f : α → γ} {f' : β → δ} (hx : Covers R x y)
    (hf : ∀ a b, R a b → S (f a) (f' b)) : Covers S (x.map f) (y.map f') := by
  intro d h
  cases y with
  | error _ => cases h
  | ok b =>
    cases h
    obtain ⟨a, rfl, hab⟩ := hx b rfl
    exact ⟨f a, rfl, hf a b hab⟩

/-- A check that an unknown dimension passes covers the check of what the dimension admits. -/
theorem Dim.Admits.covers {a b : Dim} {check : Dim → Outcome Unit} (h : a.Admits b)
    (hopen : check .unknown = .ok ()) : Covers Eq (check a) (check b) := by
  rcases h with rfl | rfl
  · intro u _
    exact ⟨(), hopen, rfl⟩
  · exact covers_refl (fun _ => rfl) _

end Covers

/-! ## Inputs -/

/-- The order of information on inputs, arrival by arrival. -/
def Inputs.Admits (inputs others : Inputs) : Prop :=
  Forall₂ (fun a b => a.1 = b.1 ∧ a.2.Admits b.2) inputs.arrivals others.arrivals

namespace Inputs

variable {inputs others : Inputs}

/-- Handle by handle, the shapes admit each other in their order. -/
theorem Admits.all (h : inputs.Admits others) (handle : String) :
    Forall₂ Shape.Admits (inputs.all handle) (others.all handle) := by
  unfold Inputs.Admits at h
  unfold Inputs.all
  generalize inputs.arrivals = arrivals at h ⊢
  generalize others.arrivals = arrivals' at h ⊢
  induction h with
  | nil => exact .nil
  | cons hab _ ih =>
    obtain ⟨hname, hshape⟩ := hab
    rw [List.filter_cons, List.filter_cons, hname]
    split
    · exact .cons hshape ih
    · exact ih

/-- Where a shape arrives in the one, there arrives one in the other. -/
theorem Admits.first? (h : inputs.Admits others) (handle : String) :
    (inputs.first? handle = Option.none ∧ others.first? handle = Option.none) ∨
      ∃ x y, inputs.first? handle = some x ∧ others.first? handle = some y ∧ x.Admits y := by
  have hall := h.all handle
  unfold Inputs.first?
  generalize inputs.all handle = xs at hall ⊢
  generalize others.all handle = ys at hall ⊢
  cases hall with
  | nil => exact Or.inl ⟨rfl, rfl⟩
  | cons hxy _ => exact Or.inr ⟨_, _, rfl, rfl, hxy⟩

/-- Sets every unknown dimension to the size for its position. -/
def fill (size : Nat → UInt64) (inputs : Inputs) : Inputs :=
  ⟨inputs.arrivals.map fun arrival => (arrival.1, arrival.2.fill size)⟩

theorem all_fill (size : Nat → UInt64) (inputs : Inputs) (handle : String) :
    (inputs.fill size).all handle = (inputs.all handle).map (Shape.fill size) := by
  unfold all fill
  rw [List.filter_map, List.map_map, List.map_map]
  rfl

theorem first?_fill (size : Nat → UInt64) (inputs : Inputs) (handle : String) :
    (inputs.fill size).first? handle = (inputs.first? handle).map (Shape.fill size) := by
  rw [first?, all_fill, List.head?_map, first?]

end Inputs

end ShapeFlow
