import ShapeFlow.Proofs.Rounding
import ShapeFlow.Proofs.Window

/-!
# Stored sizes

Parameters hold their numbers as doubles. An integer that is stored is read back as the nearest
integer of at most 53 significant binary digits, cut to the range of the word that is asked for.

* `Param.Bounds.Admits`: bounds that an integer keeps, before it is rounded.
* `Param.Bounds.Admits.wholeObjection?_eq_none`: rounding does not lead out of them.
* `readBack_eq_self_iff`: which integers are read back unchanged.
* `Settings.stored_sizes_are_shortened`: **what readers and a linear layer make of a stored size.**
-/

namespace ShapeFlow

open Double

/-- A size is stored under a key. -/
def Params.store (params : Params) (key : String) (n : ℤ) : Params :=
  params.insert key (.number (ofInt n))

/-! ## Bounds -/

namespace Param.Bounds

variable {bounds : Bounds} {x : Double} {n : ℤ}

/-- An integer lies within bounds, as the exact number that it is. -/
def Admits (bounds : Bounds) (n : ℤ) : Prop :=
  (∀ least ∈ bounds.lower, least.signedUnits ≤ n * unitsOfOne) ∧
    ∀ greatest ∈ bounds.upper, n * unitsOfOne ≤ greatest.signedUnits

instance (bounds : Bounds) (n : ℤ) : Decidable (bounds.Admits n) :=
  inferInstanceAs (Decidable ((∀ least ∈ bounds.lower, least.signedUnits ≤ n * unitsOfOne) ∧
    ∀ greatest ∈ bounds.upper, n * unitsOfOne ≤ greatest.signedUnits))

/-- **Rounding does not lead out of bounds.** -/
theorem Admits.wholeObjection?_eq_none (h : bounds.Admits n) (hn : n.natAbs < 2 ^ 64) :
    bounds.wholeObjection? (ofInt n) = none := by
  refine wholeObjection?_eq_none_iff.2 ⟨isFinite_ofInt hn, fun least hleast => ?_,
    fun greatest hgreatest => ?_, isWhole_ofInt hn⟩
  · intro hlt
    have hle := signedUnits_le_ofInt hn (h.1 least hleast)
    exact absurd (lt_iff_signedUnits.1 hlt).2.2 (Int.not_lt.2 hle)
  · intro hlt
    have hle := ofInt_le_signedUnits hn (h.2 greatest hgreatest)
    exact absurd (lt_iff_signedUnits.1 hlt).2.2 (Int.not_lt.2 hle)

end Param.Bounds

/-! ## Words -/

/-- What is read of a stored integer: the shortened one, or the greatest word that there is. -/
def readBack (greatest n : ℤ) : ℤ := min (shortened n) greatest

/-- The greatest word. -/
def maxWord : ℤ := 2 ^ 64 - 1

/-- The greatest signed word. -/
def maxSigned : ℤ := 2 ^ 63 - 1

theorem readBack_eq_self_iff {greatest n : ℤ} (hn : n ≤ greatest)
    (hcarry : greatest < shortened greatest) :
    readBack greatest n = n ↔ Short n ∨ n = greatest := by
  rw [← shortened_eq_self_iff, readBack]
  constructor
  · intro h
    omega
  · rintro (h | rfl) <;> omega

theorem maxWord_lt_shortened : maxWord < shortened maxWord := by
  decide +kernel

theorem maxSigned_lt_shortened : maxSigned < shortened maxSigned := by
  decide +kernel

theorem toNat_le_maxWord (n : UInt64) : (n.toNat : ℤ) ≤ maxWord := by
  have hlt := n.toNat_lt
  unfold maxWord
  omega

namespace Double

variable {n : ℤ}

theorem toNat_toWord_ofInt (hn : 0 ≤ n) (hlt : n ≤ maxWord) :
    ((ofInt n).toWord.toNat : ℤ) = readBack maxWord n := by
  unfold maxWord at hlt
  have hnonneg : 0 ≤ shortened n := le_shortened (short_of_natAbs_le (by decide)) hn
  rw [toWord, truncate_ofInt (by omega), UInt64.toNat_ofNat', readBack, maxWord]
  simp only [UInt64.size]
  omega

theorem toSigned_ofInt (hge : -2 ^ 63 ≤ n) (hle : n ≤ maxSigned) :
    (ofInt n).toSigned = readBack maxSigned n := by
  unfold maxSigned at hle
  have hleast : -2 ^ 63 ≤ shortened n := le_shortened ⟨1, 63, by decide, by decide⟩ hge
  rw [toSigned, truncate_ofInt (by omega), readBack, maxSigned]
  omega

end Double

/-! ## Readers -/

namespace Settings

variable {schema : List Param.Spec} {params : Params} {key : String} {bounds : Param.Bounds}
  {default : Param.Value} {n : ℤ}

section

variable (hspec : schema.find? (·.key == key) = some ⟨key, .whole bounds, default⟩)
include hspec

theorem value_store (hfits : bounds.wholeObjection? (ofInt n) = none) :
    (Settings.mk schema (params.store key n)).value key = .ok (.number (ofInt n)) := by
  have hcheck : Param.Spec.check ⟨key, .whole bounds, default⟩ (.number (ofInt n)) = .ok () := by
    rw [Param.Spec.check_eq_ok_iff, Param.Kind.objection?, hfits]
  refine (value_eq_ok_iff hspec).2 ⟨hcheck, ?_⟩
  rw [Params.store, Table.get?_insert, if_pos rfl, Option.getD_some]

theorem word_store (hfits : bounds.wholeObjection? (ofInt n) = none) (hn : 0 ≤ n) :
    (Settings.mk schema (params.store key n)).word key = .ok (ofInt n).toWord := by
  have hnonneg : 0 ≤ ofInt n := by
    have hfinite : (ofInt n).isFinite := (Param.Bounds.wholeObjection?_eq_none_iff.1 hfits).1
    have hsign : (ofInt n).negative = false := decide_eq_false (Int.not_lt.2 hn)
    have hplace : (ofInt n).place = (ofInt n).rank := by
      rw [place, hsign]
      rfl
    have hzero : (0 : Double).isNaN = false ∧ (0 : Double).place = 0 := by
      decide +kernel
    have hle : (0 : Double).place ≤ (ofInt n).place := by
      rw [hplace, hzero.2]
      exact Int.natCast_nonneg _
    exact le_iff.2 ⟨hzero.1, isNaN_of_isFinite hfinite, hle⟩
  exact word_of_value (value_store hspec hfits) hnonneg

theorem signed_store (hfits : bounds.wholeObjection? (ofInt n) = none) :
    (Settings.mk schema (params.store key n)).signed key = .ok (ofInt n).toSigned := by
  rw [signed, value_store hspec hfits]
  rfl

/-- **A stored word** is read back as its rounding. -/
theorem word_store_of_admits {n : UInt64} (hadmits : bounds.Admits n.toNat) :
    ∃ read : UInt64, (Settings.mk schema (params.store key n.toNat)).word key = .ok read ∧
      (read.toNat : ℤ) = readBack maxWord n.toNat ∧
      (read = n ↔ Short n.toNat ∨ n.toNat = maxWord) := by
  have hfits := hadmits.wholeObjection?_eq_none n.toNat_lt
  have hread := toNat_toWord_ofInt (Int.natCast_nonneg _) (toNat_le_maxWord n)
  refine ⟨_, word_store hspec hfits (Int.natCast_nonneg _), hread, ?_⟩
  rw [← readBack_eq_self_iff (toNat_le_maxWord n) maxWord_lt_shortened, ← hread, Int.natCast_inj,
    UInt64.toNat_inj]

theorem word_store_of_short {n : UInt64} (hadmits : bounds.Admits n.toNat)
    (hshort : Short n.toNat) :
    (Settings.mk schema (params.store key n.toNat)).word key = .ok n := by
  obtain ⟨read, hread, -, hexact⟩ := word_store_of_admits hspec hadmits
  rw [hread, hexact.2 (Or.inl hshort)]

/-- **A stored signed word** is read back as its rounding. -/
theorem signed_store_of_admits (hge : -2 ^ 63 ≤ n) (hle : n ≤ maxSigned)
    (hadmits : bounds.Admits n) :
    ∃ read, (Settings.mk schema (params.store key n)).signed key = .ok read ∧
      read = readBack maxSigned n ∧ (read = n ↔ Short n ∨ n = maxSigned) := by
  have habs : n.natAbs < 2 ^ 64 := by
    unfold maxSigned at hle
    omega
  have hread := toSigned_ofInt hge hle
  refine ⟨_, signed_store hspec (hadmits.wholeObjection?_eq_none habs), hread, ?_⟩
  rw [hread, readBack_eq_self_iff hle maxSigned_lt_shortened]

theorem signed_store_of_short (hge : -2 ^ 63 ≤ n) (hle : n ≤ maxSigned)
    (hadmits : bounds.Admits n) (hshort : Short n) :
    (Settings.mk schema (params.store key n)).signed key = .ok n := by
  obtain ⟨read, hread, -, hexact⟩ := signed_store_of_admits hspec hge hle hadmits
  rw [hread, hexact.2 (Or.inl hshort)]

end

end Settings

/-! ## Linear layers -/

/-- A linear layer compares a known trailing dimension with the size that it reads. -/
theorem Rule.linear_of_known {settings : Settings} {x : Shape} {features out d : UInt64}
    (hin : settings.word "in_features" = .ok features)
    (hout : settings.word "out_features" = .ok out) (hlast : x.last? = some (.known d)) :
    linear settings x = if d = features then .ok (x.withLast (.known out)) else
      .error (.atHandle Block.defaultInput (.dimensionMismatch "in_features" features d)) := by
  rw [linear, hin, hout, trailing, hlast]
  show (expectSize "in_features" features (.known d) >>= fun _ => _) = _
  unfold expectSize
  dsimp only
  split <;> rfl

namespace Block

variable {params : Params} {inputs : Inputs} {x : Shape} {d size : UInt64}

/-- Parameters that conform to the schema hold a size that can be read. -/
theorem word_of_conforms
    (hconforms : Param.Conforms linear.schema (params.store "in_features" size.toNat)) :
    ∃ read : UInt64, (linear.settings (params.store "in_features" size.toNat)).word "in_features" =
      .ok read ∧ (read.toNat : ℤ) = readBack maxWord size.toNat := by
  have hstored : (params.store "in_features" size.toNat).get? "in_features" =
      some (.number (ofInt size.toNat)) := by
    rw [Params.store, Table.get?_insert, if_pos rfl]
  have hfits := hconforms (.whole "in_features" 1 784) List.mem_cons_self _ hstored
  simp only [Param.Spec.whole, Param.Kind.objection?] at hfits
  exact ⟨_, Settings.word_store rfl hfits (Int.natCast_nonneg _),
    toNat_toWord_ofInt (Int.natCast_nonneg _) (toNat_le_maxWord size)⟩

/-- **A linear layer accepts** a known trailing dimension iff it is the size that is read. -/
theorem outputShape_linear_succeeds_iff
    (hconforms : Param.Conforms linear.schema (params.store "in_features" size.toNat))
    (hfirst : inputs.first? defaultInput = some x) (hlast : x.last? = some (.known d)) :
    (∃ y, linear.outputShape (params.store "in_features" size.toNat) inputs = .ok y) ↔
      (d.toNat : ℤ) = readBack maxWord size.toNat := by
  obtain ⟨out, hout⟩ : (Reading.word "out_features").Succeeds _ :=
    readings_succeed hconforms _ (by decide)
  obtain ⟨read, hin, hread⟩ := word_of_conforms hconforms
  rw [outputShape_of_first? rfl hconforms hfirst, rule, Rule.single, hfirst, ok_bind,
    Rule.linear_of_known hin hout hlast, ← hread, Int.natCast_inj, UInt64.toNat_inj]
  split
  · next heq => simp [heq]
  · next hne => simp [hne]

end Block

namespace Settings

/-- **Stored sizes are shortened.** Rounding gives the nearest integer of at most 53 significant
binary digits, a half going to the even one. A size that the bounds of its entry admit, stored in
any parameters, is read back as its rounding, or as the greatest word where that is less, and so
unchanged iff it has no more digits or is the greatest word. No two sizes of so few digits are read
as the same. A linear layer accepts a known trailing dimension iff it is the size that is read,
which is the size that is stored if that has no more digits. -/
theorem stored_sizes_are_shortened :
    (∀ n : ℤ, Short (shortened n) ∧ (n.natAbs ≤ 2 ^ 53 → Short n) ∧
      ∀ p, Short p → (shortened n - n).natAbs ≤ (p - n).natAbs ∧
        (p ≠ shortened n → (p - n).natAbs = (shortened n - n).natAbs →
          2 ^ (excess n.natAbs + 1) ∣ (shortened n).natAbs)) ∧
    (∀ (schema : List Param.Spec) (params : Params) (key : String) (bounds : Param.Bounds)
      (default : Param.Value),
      schema.find? (·.key == key) = some ⟨key, .whole bounds, default⟩ →
      (∀ n : UInt64, bounds.Admits n.toNat →
        (∃ read : UInt64, (Settings.mk schema (params.store key n.toNat)).word key = .ok read ∧
          (read.toNat : ℤ) = readBack maxWord n.toNat ∧
          (read = n ↔ Short n.toNat ∨ n.toNat = maxWord)) ∧
        ∀ other : UInt64, bounds.Admits other.toNat → Short n.toNat → Short other.toNat →
          (Settings.mk schema (params.store key n.toNat)).word key =
            (Settings.mk schema (params.store key other.toNat)).word key → n = other) ∧
      ∀ n : ℤ, -2 ^ 63 ≤ n → n ≤ maxSigned → bounds.Admits n →
        (∃ read, (Settings.mk schema (params.store key n)).signed key = .ok read ∧
          read = readBack maxSigned n ∧ (read = n ↔ Short n ∨ n = maxSigned)) ∧
        ∀ other, -2 ^ 63 ≤ other → other ≤ maxSigned → bounds.Admits other →
          Short n → Short other →
          (Settings.mk schema (params.store key n)).signed key =
            (Settings.mk schema (params.store key other)).signed key → n = other) ∧
    ∀ (params : Params) (inputs : Inputs) (x : Shape) (d size : UInt64),
      Param.Conforms Block.linear.schema (params.store "in_features" size.toNat) →
      inputs.first? Block.defaultInput = some x → x.last? = some (.known d) →
      ((∃ y, Block.linear.outputShape (params.store "in_features" size.toNat) inputs = .ok y) ↔
        (d.toNat : ℤ) = readBack maxWord size.toNat) ∧
      (Short size.toNat →
        ((∃ y, Block.linear.outputShape (params.store "in_features" size.toNat) inputs = .ok y) ↔
          d = size)) := by
  refine ⟨fun n => ⟨short_shortened n, short_of_natAbs_le, fun p hp =>
    ⟨shortened_nearest hp n, shortened_tie hp⟩⟩, fun schema params key bounds default hspec =>
    ⟨fun n hadmits => ⟨word_store_of_admits hspec hadmits, fun other hother hn hshort hsame => ?_⟩,
      fun n hge hle hadmits => ⟨signed_store_of_admits hspec hge hle hadmits,
        fun other hotherGe hotherLe hother hn hshort hsame => ?_⟩⟩,
    fun params inputs x d size hconforms hfirst hlast => ?_⟩
  · rw [word_store_of_short hspec hadmits hn, word_store_of_short hspec hother hshort] at hsame
    exact Except.ok.inj hsame
  · rw [signed_store_of_short hspec hge hle hadmits hn,
      signed_store_of_short hspec hotherGe hotherLe hother hshort] at hsame
    exact Except.ok.inj hsame
  · have haccepts := Block.outputShape_linear_succeeds_iff hconforms hfirst hlast
    refine ⟨haccepts, fun hshort => ?_⟩
    have hback : readBack maxWord size.toNat = size.toNat :=
      (readBack_eq_self_iff (toNat_le_maxWord size) maxWord_lt_shortened).2 (Or.inl hshort)
    rw [haccepts, hback, Int.natCast_inj, UInt64.toNat_inj]

/-- The greatest word and the least axis are read back unchanged, and a layer for `2 ^ 53 + 2`
features, which are an even number, refuses `2 ^ 53`. -/
theorem stored_sizes_are_shortened_wide :
    (Block.linear.settings (Params.store Table.empty "in_features" 0xFFFFFFFFFFFFFFFF)).word
      "in_features" = .ok 0xFFFFFFFFFFFFFFFF ∧
    (Block.softmax.settings (Params.store Table.empty "dim" (-8))).signed "dim" = .ok (-8) ∧
    ¬ ∃ y, Block.linear.outputShape (Params.store Table.empty "in_features" 0x20000000000002)
      ⟨[("in", ⟨[.known 0x20000000000000]⟩)]⟩ = .ok y := by
  obtain ⟨-, hreaders, hlinear⟩ := stored_sizes_are_shortened
  obtain ⟨hwords, -⟩ := hreaders Block.linear.schema Table.empty "in_features" ⟨some 1, none⟩
    (.number 784) rfl
  obtain ⟨-, hsigned⟩ := hreaders Block.softmax.schema Table.empty "dim" ⟨some (-8), some 8⟩
    (.number (-1)) rfl
  obtain ⟨⟨word, hword, -, hwordExact⟩, -⟩ := hwords 0xFFFFFFFFFFFFFFFF (by decide +kernel)
  obtain ⟨⟨axis, haxis, -, haxisExact⟩, -⟩ := hsigned (-8) (by decide) (by decide)
    (by decide +kernel)
  have hconforms : Param.Conforms Block.linear.schema
      (Params.store Table.empty "in_features" 0x20000000000002) := by
    rw [Param.conforms_iff]
    decide +kernel
  have hshort : Short 0x20000000000002 := by decide +kernel
  obtain ⟨-, haccepts⟩ := hlinear Table.empty ⟨[("in", ⟨[.known 0x20000000000000]⟩)]⟩
    ⟨[.known 0x20000000000000]⟩ 0x20000000000000 0x20000000000002 hconforms rfl rfl
  refine ⟨?_, ?_, fun haccepted => ?_⟩
  · have hgreatest : ((0xFFFFFFFFFFFFFFFF : UInt64).toNat : ℤ) = 0xFFFFFFFFFFFFFFFF := by decide
    rw [hwordExact.2 (Or.inr (by decide)), hgreatest] at hword
    exact hword
  · rwa [haxisExact.2 (Or.inl (short_of_natAbs_le (by decide)))] at haxis
  · exact absurd ((haccepts hshort).1 haccepted) (by decide)

/-- **The first size that is lost.** Bounds admit `2 ^ 53 + 1`, but it is read as `2 ^ 53`, like the
size below it, and so a linear layer takes as many features. -/
theorem stored_size_is_lost :
    (Param.Bounds.mk (some 1) none).Admits 9007199254740993 ∧
    (Block.linear.settings (Params.store Table.empty "in_features" 9007199254740993)).word
      "in_features" = .ok 9007199254740992 ∧
    (Block.linear.settings (Params.store Table.empty "in_features" 9007199254740992)).word
      "in_features" = .ok 9007199254740992 ∧
    Block.linear.outputShape (Params.store Table.empty "in_features" 9007199254740993)
      ⟨[("in", ⟨[.known 9007199254740992]⟩)]⟩ = .ok ⟨[.known 128]⟩ := by
  decide +kernel

end Settings

end ShapeFlow
