import ShapeFlow.Proofs.Admits
import ShapeFlow.Rule.Merge

/-!
# Merging as a least upper bound

Merged shapes are the least shape that all of them admit. Stated like this, neither the order of the
inputs nor the intermediate results of the merge matter.

* `Dim.plus`: the sum along an axis, which is known if it is a word however it is bracketed.
* `Shape.Joins`: the least shape that the shapes of a list admit.
* `Rule.add_eq_ok_iff`: a sum succeeds with what its inputs know together.
* `Rule.concat_eq_ok_iff`: a concatenation does so with its axis left open, and adds along it.
-/

namespace ShapeFlow

open List

/-! ## Sums -/

namespace Dim

variable {a b c : Dim}

/-- The sum, unknown when it is not known or too large. -/
def plus (a b : Dim) : Dim := (a.add? b).getD .unknown

/-- A sum of known sizes beyond a word is unknown. -/
theorem plus_known (m n : UInt64) :
    (known m).plus (known n) = (ofNat? (m.toNat + n.toNat)).getD .unknown := rfl

@[simp] theorem plus_unknown (a : Dim) : a.plus unknown = unknown := by
  cases a <;> rfl

@[simp] theorem unknown_plus (a : Dim) : unknown.plus a = unknown := by
  cases a <;> rfl

/-- Known dimensions have the sum of their sizes, if it is a word. -/
theorem plus_eq_known_iff {k : UInt64} :
    a.plus b = known k ↔ ∃ m n, a = known m ∧ b = known n ∧ m.toNat + n.toNat = k.toNat := by
  cases a with
  | unknown => simp
  | known m =>
    cases b with
    | unknown => simp
    | known n =>
      rw [plus_known]
      cases hsum : ofNat? (m.toNat + n.toNat) with
      | none =>
        rw [ofNat?_eq_none_iff] at hsum
        have hk := k.toNat_lt
        simp only [UInt64.size] at hsum
        simp only [Option.getD_none, reduceCtorEq, known.injEq, false_iff, not_exists, not_and]
        rintro _ _ rfl rfl
        omega
      | some d =>
        obtain ⟨s, hs, rfl⟩ := (ofNat?_eq_some_iff _ _).1 hsum
        simp only [Option.getD_some, known.injEq]
        constructor
        · rintro rfl
          exact ⟨m, n, rfl, rfl, hs.symm⟩
        · rintro ⟨_, _, rfl, rfl, h⟩
          exact UInt64.toNat_inj.1 (hs.trans h)

/-- A sum of dimensions that leave more open leaves more open. -/
theorem Admits.plus {d e : Dim} (hab : a.Admits b) (hde : d.Admits e) :
    (a.plus d).Admits (b.plus e) := by
  rcases hab with rfl | rfl
  · rw [unknown_plus]
    exact unknown_admits _
  · rcases hde with rfl | rfl
    · rw [plus_unknown]
      exact unknown_admits _
    · rfl

theorem plus_comm (a b : Dim) : a.plus b = b.plus a := by
  cases a with
  | unknown => simp
  | known m =>
    cases b with
    | unknown => simp
    | known n => rw [plus_known, plus_known, Nat.add_comm]

/-- Sums can be put together in any order, also where one of them leaves a word: the sum of all of
them does so as well. -/
theorem plus_assoc (a b c : Dim) : (a.plus b).plus c = a.plus (b.plus c) := by
  -- both sides are known for the same sizes, whichever partial sum is too large
  have hsame : ∀ k, (a.plus b).plus c = known k ↔ a.plus (b.plus c) = known k := by
    intro k
    have hk := k.toNat_lt
    simp only [plus_eq_known_iff]
    constructor
    · rintro ⟨_, n, ⟨p, q, rfl, rfl, hpq⟩, rfl, hsum⟩
      refine ⟨p, UInt64.ofNat (q.toNat + n.toNat), rfl, ⟨q, n, rfl, rfl, ?_⟩, ?_⟩
      · rw [UInt64.toNat_ofNat']
        omega
      · rw [UInt64.toNat_ofNat']
        omega
    · rintro ⟨p, _, rfl, ⟨q, n, rfl, rfl, hqn⟩, hsum⟩
      refine ⟨UInt64.ofNat (p.toNat + q.toNat), n, ⟨p, q, rfl, rfl, ?_⟩, rfl, ?_⟩
      · rw [UInt64.toNat_ofNat']
        omega
      · rw [UInt64.toNat_ofNat']
        omega
  cases hleft : (a.plus b).plus c with
  | known k => exact ((hsame k).1 hleft).symm
  | unknown =>
    cases hright : a.plus (b.plus c) with
    | known k =>
      rw [(hsame k).2 hright] at hleft
      cases hleft
    | unknown => rfl

instance : Std.Associative plus := ⟨plus_assoc⟩
instance : Std.Commutative plus := ⟨plus_comm⟩


theorem known_zero_plus (a : Dim) : (known 0).plus a = a := by
  cases a with
  | unknown => rfl
  | known n =>
    refine plus_eq_known_iff.2 ⟨0, n, rfl, rfl, ?_⟩
    rw [UInt64.toNat_zero, Nat.zero_add]

end Dim

/-! ## What shapes know together -/

namespace Shape

variable {shapes others : List Shape} {x y : Shape} {axis i : Nat} {n : UInt64}

/-- The least shape that all shapes of a list admit. -/
def Joins (shapes : List Shape) (x : Shape) : Prop :=
  ∀ y : Shape, x.Admits y ↔ ∀ s ∈ shapes, s.Admits y

theorem Joins.admits (h : Joins shapes x) {s : Shape} (hs : s ∈ shapes) : s.Admits x :=
  (h x).1 (admits_refl x) s hs

/-- There is at most one least shape. -/
theorem Joins.unique (hx : Joins shapes x) (hy : Joins shapes y) : x = y := by
  have hxy : x.Admits y := (hx y).2 fun s hs => hy.admits hs
  have hyx : y.Admits x := (hy x).2 fun s hs => hx.admits hs
  exact hxy.antisymm hyx

/-- The order of the shapes and their repetition do not matter. -/
theorem joins_congr (h : ∀ s, s ∈ shapes ↔ s ∈ others) : Joins shapes x ↔ Joins others x := by
  simp only [Joins, h]

theorem Joins.ne_nil (h : Joins shapes x) : shapes ≠ [] := by
  rintro rfl
  -- nothing admits both the shape without dimensions and one with a dimension
  have hempty : x.Admits ⟨[]⟩ := (h _).2 fun s hs => absurd hs List.not_mem_nil
  have hone : x.Admits ⟨[.unknown]⟩ := (h _).2 fun s hs => absurd hs List.not_mem_nil
  have hrank := hempty.rank_eq.symm.trans hone.rank_eq
  cases hrank

/-- The shape with an axis left open. -/
def opened (axis : Nat) (x : Shape) : Shape := ⟨x.dims.set axis .unknown⟩

/-- The dimension of an axis, unknown if there is none. -/
def entry (axis : Nat) (x : Shape) : Dim := x.dims.getD axis .unknown

theorem rank_opened (axis : Nat) (x : Shape) : (x.opened axis).rank = x.rank :=
  List.length_set

/-- The order of information splits into one along an axis and one outside of it. -/
theorem forall₂_admits_iff_set : ∀ (axis : Nat) (as bs : List Dim), Forall₂ Dim.Admits as bs ↔
    Forall₂ Dim.Admits (as.set axis .unknown) (bs.set axis .unknown) ∧
      (as.getD axis .unknown).Admits (bs.getD axis .unknown)
  | axis, [], [] => by simp
  | axis, [], _ :: _ => by cases axis <;> simp
  | axis, _ :: _, [] => by cases axis <;> simp
  | 0, a :: as, b :: bs => by simp [and_comm]
  | axis + 1, a :: as, b :: bs => by
    simp [forall₂_admits_iff_set axis as bs, and_assoc]

/-- A shape admits another if it does so with an axis left open and at that axis. -/
theorem admits_iff_opened (axis : Nat) : x.Admits y ↔
    (x.opened axis).Admits (y.opened axis) ∧ (x.entry axis).Admits (y.entry axis) :=
  forall₂_admits_iff_set axis x.dims y.dims

theorem eq_of_opened (axis : Nat) (hopened : x.opened axis = y.opened axis)
    (hentry : x.entry axis = y.entry axis) : x = y := by
  have hxy : x.Admits y :=
    (admits_iff_opened axis).2 ⟨hopened ▸ admits_refl _, hentry ▸ Dim.admits_refl _⟩
  have hyx : y.Admits x :=
    (admits_iff_opened axis).2 ⟨hopened ▸ admits_refl _, hentry ▸ Dim.admits_refl _⟩
  exact hxy.antisymm hyx

@[simp] theorem opened_opened (axis : Nat) (x : Shape) :
    (x.opened axis).opened axis = x.opened axis := by
  simp [opened]

@[simp] theorem entry_opened (axis : Nat) (x : Shape) : (x.opened axis).entry axis = .unknown := by
  by_cases h : axis < x.dims.length
  · simp [opened, entry, h]
  · simp [opened, entry, Nat.le_of_not_lt h]

theorem entry_eq_known_iff : x.entry i = .known n ↔ x.dim? i = some (.known n) := by
  rw [entry, Shape.dim?, List.getD_eq_getElem?_getD]
  cases x.dims[i]? <;> simp

/-- What shapes know together, one of them knows. -/
theorem Joins.exists_known (h : Joins shapes x) (hx : x.dim? i = some (.known n)) :
    ∃ s ∈ shapes, s.dim? i = some (.known n) := by
  by_contra hnone
  -- otherwise all of them leave the position open, and so would the least shape
  have hopen : x.Admits (x.opened i) := by
    refine (h _).2 fun s hs => (admits_iff_opened i).2 ?_
    obtain ⟨hoff, hat⟩ := (admits_iff_opened i).1 (h.admits hs)
    refine ⟨by rwa [opened_opened], ?_⟩
    rw [entry_eq_known_iff.2 hx] at hat
    rcases hat with hat | hat
    · rw [hat]
      exact Dim.unknown_admits _
    · exact absurd ⟨s, hs, entry_eq_known_iff.1 hat⟩ hnone
  have hat := ((admits_iff_opened i).1 hopen).2
  rw [entry_eq_known_iff.2 hx, entry_opened, Dim.known_admits_iff] at hat
  cases hat

theorem axis?_eq_of_rank_eq (h : x.rank = y.rank) (axis : Int) : x.axis? axis = y.axis? axis := by
  simp only [axis?, h]

end Shape

/-! ## The merging rules -/

namespace Rule

variable {a b u : Dim} {as bs us m : List Dim} {axis position : Nat}
  {merge? : List Dim → List Dim → Option (List Dim)} {mismatch : Shape → ShapeError}
  {merged : List Dim} {rest : List Shape} {inputs : Inputs} {settings : Settings} {out : Shape}

/-- What two dimensions come to is the least one that both admit. -/
theorem unifyDim?_join :
    (∃ d, unifyDim? a b = some d ∧ d.Admits u) ↔ a.Admits u ∧ b.Admits u := by
  cases a with
  | unknown => simp [unifyDim?, Dim.unknown_admits]
  | known n =>
    cases b with
    | unknown => simp [unifyDim?, Dim.unknown_admits]
    | known k =>
      by_cases h : n = k
      · simp [unifyDim?, h]
      · -- two sizes are never one
        have hnone : unifyDim? (.known n) (.known k) = none := if_neg h
        have hne : ¬ (u = .known n ∧ u = .known k) := by
          rintro ⟨rfl, hk⟩
          exact h (Dim.known.inj hk)
        simp [hnone, hne]

theorem unify?_cons : unify? (a :: as) (b :: bs) = some m ↔
    ∃ d rest, unifyDim? a b = some d ∧ unify? as bs = some rest ∧ d :: rest = m := by
  simp [unify?, Option.bind_eq_some_iff]

theorem joinAt?_zero : joinAt? 0 (a :: as) (b :: bs) = some m ↔
    ∃ rest, unify? as bs = some rest ∧ a.plus b :: rest = m := by
  simp [joinAt?, Option.bind_eq_some_iff, Dim.plus]

theorem joinAt?_succ : joinAt? (axis + 1) (a :: as) (b :: bs) = some m ↔
    ∃ d rest, unifyDim? a b = some d ∧ joinAt? axis as bs = some rest ∧ d :: rest = m := by
  simp [joinAt?, Option.bind_eq_some_iff]

/-- Two lists of dimensions are merged into the least one that both admit. -/
theorem unify?_join : ∀ {as bs us : List Dim},
    (∃ m, unify? as bs = some m ∧ Forall₂ Dim.Admits m us) ↔
      Forall₂ Dim.Admits as us ∧ Forall₂ Dim.Admits bs us
  | [], [], us => by simp [unify?]
  | [], _ :: _, us => by
    cases us <;> simp [unify?]
  | _ :: _, [], us => by
    cases us <;> simp [unify?]
  | a :: as, b :: bs, [] => by
    simp [unify?_cons]
  | a :: as, b :: bs, u :: us => by
    rw [forall₂_cons, forall₂_cons, and_and_and_comm, ← unifyDim?_join, ← unify?_join]
    constructor
    · rintro ⟨_, hm, hu⟩
      obtain ⟨d, rest, hd, hrest, rfl⟩ := unify?_cons.1 hm
      obtain ⟨hdu, hrestu⟩ := forall₂_cons.1 hu
      exact ⟨⟨d, hd, hdu⟩, rest, hrest, hrestu⟩
    · rintro ⟨⟨d, hd, hdu⟩, rest, hrest, hrestu⟩
      exact ⟨d :: rest, unify?_cons.2 ⟨d, rest, hd, hrest, rfl⟩, .cons hdu hrestu⟩

/-- With the axis left open, so are lists of dimensions that are joined along it. -/
theorem joinAt?_join : ∀ {axis : Nat} {as bs us : List Dim},
    (∃ m, joinAt? axis as bs = some m ∧ Forall₂ Dim.Admits (m.set axis .unknown) us) ↔
      Forall₂ Dim.Admits (as.set axis .unknown) us ∧ Forall₂ Dim.Admits (bs.set axis .unknown) us
  | _, [], [], us => by simp [joinAt?]
  | axis, [], _ :: _, us => by
    cases axis <;> cases us <;> simp [joinAt?]
  | axis, _ :: _, [], us => by
    cases axis <;> cases us <;> simp [joinAt?]
  | 0, a :: as, b :: bs, [] => by
    simp [joinAt?_zero]
  | 0, a :: as, b :: bs, u :: us => by
    simp only [List.set_cons_zero, forall₂_cons, Dim.unknown_admits, true_and]
    rw [← unify?_join]
    constructor
    · rintro ⟨_, hm, hu⟩
      obtain ⟨rest, hrest, rfl⟩ := joinAt?_zero.1 hm
      exact ⟨rest, hrest, (forall₂_cons.1 hu).2⟩
    · rintro ⟨rest, hrest, hrestu⟩
      exact ⟨_, joinAt?_zero.2 ⟨rest, hrest, rfl⟩, .cons (Dim.unknown_admits u) hrestu⟩
  | axis + 1, a :: as, b :: bs, [] => by
    simp [joinAt?_succ]
  | axis + 1, a :: as, b :: bs, u :: us => by
    simp only [List.set_cons_succ]
    rw [forall₂_cons, forall₂_cons, and_and_and_comm, ← unifyDim?_join, ← joinAt?_join]
    constructor
    · rintro ⟨_, hm, hu⟩
      obtain ⟨d, rest, hd, hrest, rfl⟩ := joinAt?_succ.1 hm
      obtain ⟨hdu, hrestu⟩ := forall₂_cons.1 hu
      exact ⟨⟨d, hd, hdu⟩, rest, hrest, hrestu⟩
    · rintro ⟨⟨d, hd, hdu⟩, rest, hrest, hrestu⟩
      exact ⟨d :: rest, joinAt?_succ.2 ⟨d, rest, hd, hrest, rfl⟩, .cons hdu hrestu⟩

/-- Along the axis the dimensions are added. -/
theorem joinAt?_getD : ∀ (axis : Nat) (as bs : List Dim) {m : List Dim},
    joinAt? axis as bs = some m →
      m.getD axis .unknown = (as.getD axis .unknown).plus (bs.getD axis .unknown)
  | axis, [], [], m, h => by
    simp only [joinAt?, Option.some.injEq] at h
    simp [← h]
  | axis, [], _ :: _, m, h => by
    cases axis <;> cases h
  | axis, _ :: _, [], m, h => by
    cases axis <;> cases h
  | 0, a :: as, b :: bs, m, h => by
    obtain ⟨rest, -, rfl⟩ := joinAt?_zero.1 h
    rfl
  | axis + 1, a :: as, b :: bs, m, h => by
    obtain ⟨d, rest, -, hrest, rfl⟩ := joinAt?_succ.1 h
    exact joinAt?_getD axis as bs hrest

/-- What holds of a merge of two iff it holds of both, holds of a merge of many iff it holds of
all. -/
theorem mergeFrom_join {P : List Dim → Prop}
    (hmerge : ∀ as bs, (∃ m, merge? as bs = some m ∧ P m) ↔ P as ∧ P bs) :
    (∃ out, mergeFrom merge? mismatch position merged rest = .ok out ∧ P out.dims) ↔
      P merged ∧ ∀ s ∈ rest, P s.dims := by
  induction rest generalizing position merged with
  | nil => simp [mergeFrom]
  | cons s rest ih =>
    have hstep := hmerge merged s.dims
    rw [List.forall_mem_cons, ← and_assoc, ← hstep, mergeFrom]
    cases merge? merged s.dims with
    | none => simp
    | some m => simpa using ih

/-- Along the axis, the merged dimensions are the sum of those of the inputs. -/
theorem mergeFrom_entry
    (h : mergeFrom (joinAt? axis) mismatch position merged rest = .ok out) :
    out.entry axis = (rest.map (Shape.entry axis)).foldl Dim.plus (merged.getD axis .unknown) := by
  induction rest generalizing position merged with
  | nil =>
    cases h
    rfl
  | cons s rest ih =>
    unfold mergeFrom at h
    split at h
    · next m hm =>
      rw [ih h, joinAt?_getD axis merged s.dims hm]
      rfl
    · cases h

/-- A sum is below exactly the shapes that all inputs are below. -/
theorem mergeFrom_unify?_admits {first y : Shape} :
    (∃ out, mergeFrom unify? mismatch position first.dims rest = .ok out ∧ out.Admits y) ↔
      ∀ s ∈ first :: rest, s.Admits y := by
  rw [List.forall_mem_cons]
  exact mergeFrom_join fun as bs => unify?_join

/-- **A sum succeeds with the least shape that all inputs admit**, and only if there is one. -/
theorem mergeFrom_unify?_eq_ok_iff {first : Shape} :
    mergeFrom unify? mismatch position first.dims rest = .ok out ↔
      Shape.Joins (first :: rest) out := by
  have hjoins : ∀ out, mergeFrom unify? mismatch position first.dims rest = .ok out →
      Shape.Joins (first :: rest) out := by
    intro out h y
    rw [← mergeFrom_unify?_admits, h]
    simp
  refine ⟨hjoins out, fun h => ?_⟩
  obtain ⟨out', hout', -⟩ := mergeFrom_unify?_admits.2 fun s hs => h.admits hs
  rw [hout', (hjoins out' hout').unique h]

/-- Shapes that have a shape above all of them have a least one. -/
theorem exists_joins {shapes : List Shape} {y : Shape} (hne : shapes ≠ [])
    (h : ∀ s ∈ shapes, s.Admits y) : ∃ x, Shape.Joins shapes x := by
  obtain ⟨first, rest, rfl⟩ := List.exists_cons_of_ne_nil hne
  have hmerge : ∃ x, mergeFrom unify? (.shapeMismatch first) 1 first.dims rest = .ok x ∧
      x.Admits y := mergeFrom_unify?_admits.2 h
  obtain ⟨x, hx, -⟩ := hmerge
  exact ⟨x, mergeFrom_unify?_eq_ok_iff.1 hx⟩

/-- **A sum** succeeds with what its inputs know together. -/
theorem add_eq_ok_iff : add inputs = .ok out ↔ Shape.Joins (inputs.all Block.defaultInput) out := by
  unfold add
  split
  · next hnil =>
    rw [hnil]
    exact ⟨fun h => (nomatch h), fun h => absurd rfl h.ne_nil⟩
  · next first rest hcons =>
    rw [hcons]
    exact mergeFrom_unify?_eq_ok_iff

example : add ⟨[("in", ⟨[.unknown, .known 8]⟩), ("in", ⟨[.known 4, .unknown]⟩)]⟩ =
    .ok ⟨[.known 4, .known 8]⟩ := rfl

/-- Shapes laid end to end along an axis: off the axis they are what they know together, and at the
axis their sum. -/
structure Lays (axis : Nat) (shapes : List Shape) (out : Shape) : Prop where
  opened : Shape.Joins (shapes.map (Shape.opened axis)) (out.opened axis)
  entry : out.entry axis = (shapes.map (Shape.entry axis)).foldl Dim.plus (.known 0)

theorem Lays.unique {shapes : List Shape} {x y : Shape} (hx : Lays axis shapes x)
    (hy : Lays axis shapes y) : x = y :=
  Shape.eq_of_opened axis (hx.opened.unique hy.opened) (hx.entry.trans hy.entry.symm)

theorem Lays.ne_nil {shapes : List Shape} (h : Lays axis shapes out) : shapes ≠ [] := by
  rintro rfl
  exact h.opened.ne_nil rfl

/-- A concatenation has the rank of each input. -/
theorem Lays.rank_eq {shapes : List Shape} (h : Lays axis shapes out) {s : Shape}
    (hs : s ∈ shapes) : s.rank = out.rank := by
  have hadmits := h.opened.admits (List.mem_map_of_mem hs)
  rw [← Shape.rank_opened axis s, ← Shape.rank_opened axis out]
  exact hadmits.rank_eq

theorem mergeFrom_joinAt?_admits {first y : Shape} :
    (∃ out, mergeFrom (joinAt? axis) mismatch position first.dims rest = .ok out ∧
      (out.opened axis).Admits y) ↔ ∀ s ∈ (first :: rest).map (Shape.opened axis), s.Admits y := by
  rw [List.forall_mem_map, List.forall_mem_cons]
  exact mergeFrom_join fun as bs => joinAt?_join

theorem mergeFrom_joinAt?_eq_ok_iff {first : Shape} :
    mergeFrom (joinAt? axis) mismatch position first.dims rest = .ok out ↔
      Lays axis (first :: rest) out := by
  have hlays : ∀ out, mergeFrom (joinAt? axis) mismatch position first.dims rest = .ok out →
      Lays axis (first :: rest) out := by
    intro out h
    refine ⟨fun y => ?_, ?_⟩
    · rw [← mergeFrom_joinAt?_admits, h]
      simp
    · rw [mergeFrom_entry h, List.map_cons, List.foldl_cons, Dim.known_zero_plus]
      rfl
  refine ⟨hlays out, fun h => ?_⟩
  obtain ⟨out', hout', -⟩ := mergeFrom_joinAt?_admits.2 fun s hs => h.opened.admits hs
  rw [hout', (hlays out' hout').unique h]

theorem exists_lays {shapes : List Shape} {y : Shape} (hne : shapes ≠ [])
    (h : ∀ s ∈ shapes, (s.opened axis).Admits y) : ∃ x, Lays axis shapes x := by
  obtain ⟨first, rest, rfl⟩ := List.exists_cons_of_ne_nil hne
  have hmerge : ∃ x, mergeFrom (joinAt? axis) (.axisMismatch axis first) 1 first.dims rest = .ok x ∧
      (x.opened axis).Admits y := mergeFrom_joinAt?_admits.2 (List.forall_mem_map.2 h)
  obtain ⟨x, hx, -⟩ := hmerge
  exact ⟨x, mergeFrom_joinAt?_eq_ok_iff.1 hx⟩

theorem resolveAxis_eq_ok_iff {x : Shape} {wanted : Int} :
    resolveAxis x wanted = .ok axis ↔ x.axis? wanted = some axis := by
  unfold resolveAxis
  cases x.axis? wanted <;> simp

/-- **A concatenation** succeeds with its inputs laid end to end along the axis that all of them
have. -/
theorem concat_eq_ok_iff : concat settings inputs = .ok out ↔
    ∃ wanted axis, settings.signed "axis" = .ok wanted ∧
      (∀ s ∈ inputs.all Block.defaultInput, s.axis? wanted = some axis) ∧
      Lays axis (inputs.all Block.defaultInput) out := by
  unfold concat
  split
  · next hnil =>
    rw [hnil]
    refine ⟨fun h => (nomatch h), ?_⟩
    rintro ⟨wanted, axis, -, -, h⟩
    exact absurd rfl h.ne_nil
  · next first rest hcons =>
    rw [hcons]
    simp only [bind_eq_ok_iff, configured_eq_ok_iff, resolveAxis_eq_ok_iff,
      mergeFrom_joinAt?_eq_ok_iff]
    constructor
    · rintro ⟨wanted, hwanted, axis, haxis, h⟩
      refine ⟨wanted, axis, hwanted, fun s hs => ?_, h⟩
      -- an axis is found by the rank alone
      have hrank : s.rank = first.rank := (h.rank_eq hs).trans (h.rank_eq List.mem_cons_self).symm
      rw [Shape.axis?_eq_of_rank_eq hrank, haxis]
    · rintro ⟨wanted, axis, hwanted, haxis, h⟩
      exact ⟨wanted, hwanted, axis, haxis first List.mem_cons_self, h⟩

end Rule

end ShapeFlow
