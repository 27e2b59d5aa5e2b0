import ShapeFlow.Proofs.Evaluate
import ShapeFlow.Proofs.Filling

/-!
# Unknown dimensions are treated exactly

* `Dim.Resolves`, `Shape.Resolves`, `Inputs.Resolves`: known dimensions stay as they are, and every
  unknown one is replaced by a known one with a property.
* `Block.outputShape_exact`: **a block accepts inputs iff it accepts some way to resolve them**, and
  whatever is known of the output is true of every way to resolve them that is accepted.
* `Block.zero_not_positive`: beside a dimension of 0, positive sizes do not suffice.
-/

namespace ShapeFlow

open List

variable {P : UInt64 → Prop}

/-- A known dimension is kept; an unknown one becomes known, with a size that has a property. -/
def Dim.Resolves (P : UInt64 → Prop) : Dim → Dim → Prop
  | .known n, d => d = .known n
  | .unknown, d => ∃ n, P n ∧ d = .known n

/-- Every unknown dimension is resolved by itself. -/
def Shape.Resolves (P : UInt64 → Prop) (x y : Shape) : Prop :=
  Forall₂ (Dim.Resolves P) x.dims y.dims

/-- The arrivals keep their handles and their order. -/
def Inputs.Resolves (P : UInt64 → Prop) (inputs resolved : Inputs) : Prop :=
  Forall₂ (fun a b => a.1 = b.1 ∧ a.2.Resolves P b.2) inputs.arrivals resolved.arrivals

theorem Dim.Resolves.admits {a b : Dim} (h : a.Resolves P b) : a.Admits b := by
  cases a with
  | unknown => exact unknown_admits b
  | known n => exact known_admits_iff.2 h

theorem Inputs.Resolves.admits {inputs resolved : Inputs} (h : inputs.Resolves P resolved) :
    inputs.Admits resolved :=
  h.imp fun _ _ hab => ⟨hab.1, hab.2.imp fun _ _ hd => hd.admits⟩

theorem Inputs.Resolves.mono {Q : UInt64 → Prop} (hPQ : ∀ n, P n → Q n) {inputs resolved : Inputs}
    (h : inputs.Resolves P resolved) : inputs.Resolves Q resolved := by
  refine h.imp fun _ _ hab => ⟨hab.1, hab.2.imp fun a b hd => ?_⟩
  cases a with
  | known n => exact hd
  | unknown =>
    obtain ⟨n, hn, rfl⟩ := hd
    exact ⟨n, hPQ n hn, rfl⟩

/-- Filling is one way to resolve a shape. -/
theorem Shape.resolves_fill {size : Nat → UInt64} (hsize : ∀ i, P (size i)) (x : Shape) :
    x.Resolves P (x.fill size) := by
  refine List.forall₂_iff_get.2 ⟨(List.length_mapIdx).symm, fun i hi hi' => ?_⟩
  simp only [Shape.fill, List.get_eq_getElem, List.getElem_mapIdx]
  cases x.dims[i] with
  | known n => rfl
  | unknown => exact ⟨size i, hsize i, rfl⟩

theorem Inputs.resolves_fill {size : Nat → UInt64} (hsize : ∀ i, P (size i)) (inputs : Inputs) :
    inputs.Resolves P (inputs.fill size) := by
  unfold Inputs.Resolves Inputs.fill
  rw [forall₂_map_right_iff, forall₂_same]
  exact fun arrival _ => ⟨rfl, arrival.2.resolves_fill hsize⟩

namespace Block

variable {block : Block} {params : Params} {inputs others : Inputs} {out : Shape}

/-- A block accepts its inputs if its parameters fit, its handles are connected and its rule
accepts. -/
theorem outputShape_eq_ok_iff : block.outputShape params inputs = .ok out ↔
    Param.checkSchema block.schema params = .ok () ∧
      (∀ h ∈ block.inputs, inputs.isConnected h.name = true) ∧
      block.rule params inputs = .ok out := by
  simp only [outputShape, bind_eq_ok_iff, Rule.configured_eq_ok_iff, ← requireConnected_eq_ok_iff]
  constructor
  · rintro ⟨_, hschema, _, hconnected, hrule⟩
    exact ⟨hschema, hconnected, hrule⟩
  · rintro ⟨hschema, hconnected, hrule⟩
    exact ⟨(), hschema, (), hconnected, hrule⟩

theorem isConnected_eq (h : inputs.Admits others) (handle : String) :
    inputs.isConnected handle = others.isConnected handle := by
  have hall := h.all handle
  unfold Inputs.isConnected
  generalize inputs.all handle = xs at hall ⊢
  generalize others.all handle = ys at hall ⊢
  cases hall with
  | nil => rfl
  | cons _ _ => rfl

/-- A block that accepts inputs accepts every inputs that leave more open. -/
theorem outputShape_covers (h : inputs.Admits others) :
    Covers Shape.Admits (block.outputShape params inputs) (block.outputShape params others) := by
  intro out' hout'
  obtain ⟨hschema, hconnected, hrule⟩ := outputShape_eq_ok_iff.1 hout'
  obtain ⟨out, hout, hadmits⟩ := block.rule_covers params h out' hrule
  refine ⟨out, outputShape_eq_ok_iff.2 ⟨hschema, fun handle hhandle => ?_, hout⟩, hadmits⟩
  rw [isConnected_eq h]
  exact hconnected handle hhandle

theorem outputShape_fill (h : Succeeds (block.outputShape params inputs)) :
    inputs.Fills (block.Positive inputs) (block.outputShape params) := by
  obtain ⟨out, hout⟩ := h
  obtain ⟨hschema, hconnected, hrule⟩ := outputShape_eq_ok_iff.1 hout
  obtain ⟨size, hpos, out', hout'⟩ := block.rule_fill params ⟨out, hrule⟩
  have hadmits : inputs.Admits (inputs.fill size) :=
    (inputs.resolves_fill (P := fun _ => True) fun _ => trivial).admits
  refine ⟨size, hpos, out', outputShape_eq_ok_iff.2 ⟨hschema, fun handle hhandle => ?_, hout'⟩⟩
  rw [← isConnected_eq hadmits]
  exact hconnected handle hhandle

/-- **Unknown dimensions are treated exactly.** A block accepts inputs iff it accepts some way to
resolve them, and some way with positive sizes unless it compares inputs of which a dimension is
known to be 0. Every output that such a way leads to has the rank of the output, and the dimensions
that are known of it. -/
theorem outputShape_exact (block : Block) (params : Params) (inputs : Inputs) :
    ((∃ out, block.outputShape params inputs = .ok out) ↔
      ∃ resolved, inputs.Resolves (fun _ => True) resolved ∧
        ∃ out, block.outputShape params resolved = .ok out) ∧
    ((block.comparesInputs = true → inputs.NoZero) →
      ((∃ out, block.outputShape params inputs = .ok out) ↔
        ∃ resolved, inputs.Resolves (fun n => 0 < n) resolved ∧
          ∃ out, block.outputShape params resolved = .ok out)) ∧
    (∀ resolved concrete, inputs.Resolves (fun _ => True) resolved →
      block.outputShape params resolved = .ok concrete →
        ∃ out, block.outputShape params inputs = .ok out ∧ concrete.rank = out.rank ∧
          ∀ i n, out.dim? i = some (.known n) → concrete.dim? i = some (.known n)) := by
  have haccepted : ∀ resolved concrete, inputs.Resolves (fun _ => True) resolved →
      block.outputShape params resolved = .ok concrete →
        ∃ out, block.outputShape params inputs = .ok out ∧ out.Admits concrete := by
    intro resolved concrete hresolves hconcrete
    exact outputShape_covers hresolves.admits concrete hconcrete
  refine ⟨⟨?_, ?_⟩, fun hno => ⟨?_, ?_⟩, ?_⟩
  · intro h
    obtain ⟨size, -, hfill⟩ := outputShape_fill h
    exact ⟨inputs.fill size, inputs.resolves_fill fun _ => trivial, hfill⟩
  · rintro ⟨resolved, hresolves, concrete, hconcrete⟩
    obtain ⟨out, hout, -⟩ := haccepted resolved concrete hresolves hconcrete
    exact ⟨out, hout⟩
  · intro h
    obtain ⟨size, hpos, hfill⟩ := outputShape_fill h
    exact ⟨inputs.fill size, inputs.resolves_fill (hpos hno), hfill⟩
  · rintro ⟨resolved, hresolves, concrete, hconcrete⟩
    have hresolves' := hresolves.mono fun _ _ => trivial
    obtain ⟨out, hout, -⟩ := haccepted resolved concrete hresolves' hconcrete
    exact ⟨out, hout⟩
  · intro resolved concrete hresolves hconcrete
    obtain ⟨out, hout, hadmits⟩ := haccepted resolved concrete hresolves hconcrete
    exact ⟨out, hout, hadmits.rank_eq.symm, fun i n => hadmits.dim?⟩

/-- A sum of an open dimension and one of 0. -/
def openBesideZero : Inputs := ⟨[("in", ⟨[.unknown]⟩), ("in", ⟨[.known 0]⟩)]⟩

/-- **Positive sizes do not suffice** beside a dimension of 0, which an unknown one may equal. -/
theorem zero_not_positive :
    ¬ ((∃ out, add.outputShape Table.empty openBesideZero = .ok out) ↔
      ∃ resolved, openBesideZero.Resolves (fun n => 0 < n) resolved ∧
        ∃ out, add.outputShape Table.empty resolved = .ok out) := by
  intro h
  obtain ⟨⟨arrivals⟩, hresolves, out, hout⟩ := h.1 ⟨⟨[.known 0]⟩, rfl⟩
  obtain ⟨n, hn, rfl⟩ : ∃ n : UInt64, 0 < n ∧
      arrivals = [("in", ⟨[.known n]⟩), ("in", ⟨[.known 0]⟩)] := by
    rcases hresolves with _ | ⟨⟨hopen, hsize⟩, _ | ⟨⟨hzero, hkept⟩, _ | _⟩⟩
    rename_i a b
    obtain ⟨_, ⟨dims⟩⟩ := a
    obtain ⟨_, ⟨dims'⟩⟩ := b
    rcases hsize with _ | ⟨⟨n, hn, rfl⟩, _ | _⟩
    rcases hkept with _ | ⟨hkept, _ | _⟩
    cases hopen
    cases hzero
    cases hkept
    exact ⟨n, hn, rfl⟩
  have hadd : Rule.add ⟨[("in", ⟨[.known n]⟩), ("in", ⟨[.known 0]⟩)]⟩ = .ok out :=
    (outputShape_eq_ok_iff.1 hout).2.2
  have hjoins := Rule.add_eq_ok_iff.1 hadd
  have hfirst : Shape.Admits ⟨[.known n]⟩ out := hjoins.admits List.mem_cons_self
  have hsecond : Shape.Admits ⟨[.known 0]⟩ out :=
    hjoins.admits (List.mem_cons_of_mem _ List.mem_cons_self)
  have hsame : some (Dim.known n) = some (.known 0) :=
    (hfirst.dim? (i := 0) rfl).symm.trans (hsecond.dim? rfl)
  cases hsame
  exact absurd hn (by decide)

end Block

end ShapeFlow
