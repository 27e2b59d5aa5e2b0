import ShapeFlow.Digest.Sha256
import ShapeFlow.Proofs.Text

/-!
# Digests as text

* `Sha256.hexWord_injective`: a word is determined by its eight digits.
* `Sha256.hexDigest_eq_iff`: **texts with one digest are equal or collide**.
-/

namespace ShapeFlow.Sha256

open Text

/-! ### Words -/

theorem hexWord_toList (w : UInt32) : (hexWord w).toList =
    List.replicate (8 - (Nat.toDigits 16 w.toNat).length) '0' ++ Nat.toDigits 16 w.toNat := by
  have hdigits : (hex w.toNat).toList = Nat.toDigits 16 w.toNat := String.toList_ofList
  rw [hexWord, String.toList_append, pushn_toList, hdigits, hex, String.length_ofList]

theorem length_hexWord (w : UInt32) : (hexWord w).toList.length = 8 := by
  have hlength : (Nat.toDigits 16 w.toNat).length ≤ 8 :=
    (Nat.length_toDigits_le_iff (by decide) (by decide)).2 w.toNat_lt
  rw [hexWord_toList, List.length_append, List.length_replicate]
  omega

/-- **A word is determined by its digits.** -/
theorem hexWord_injective : Function.Injective (fun w => (hexWord w).toList) := by
  intro v w h
  have hvalue := congrArg hexNumber h
  dsimp only at hvalue
  rw [hexWord_toList, hexWord_toList, hexNumber_zeros, hexNumber_zeros, hexNumber_toDigits,
    hexNumber_toDigits] at hvalue
  exact UInt32.toNat_inj.1 hvalue

theorem flatMap_hexWord_inj {vs ws : List UInt32}
    (h : vs.flatMap (fun w => (hexWord w).toList) = ws.flatMap (fun w => (hexWord w).toList)) :
    vs = ws := by
  have hne (w : UInt32) : (hexWord w).toList ≠ [] :=
    List.ne_nil_of_length_pos (by rw [length_hexWord]; decide)
  induction vs generalizing ws with
  | nil =>
    cases ws with
    | nil => rfl
    | cons w ws => exact absurd (List.append_eq_nil_iff.1 h.symm).1 (hne w)
  | cons v vs ih =>
    cases ws with
    | nil => exact absurd (List.append_eq_nil_iff.1 h).1 (hne v)
    | cons w ws =>
      rw [List.flatMap_cons, List.flatMap_cons] at h
      have hlength : (hexWord v).toList.length = (hexWord w).toList.length := by
        rw [length_hexWord, length_hexWord]
      obtain ⟨hfirst, hrest⟩ := List.append_inj h hlength
      rw [hexWord_injective hfirst, ih hrest]

/-- Two messages with one digest. -/
def Collide (m n : List UInt8) : Prop := m ≠ n ∧ digest m = digest n

/-- **Texts with one digest** are equal or collide. -/
theorem hexDigest_eq_iff {s t : String} : hexDigest s = hexDigest t ↔
    s = t ∨ Collide s.toUTF8.toList t.toUTF8.toList := by
  have hdigest : hexDigest s = hexDigest t ↔
      digest s.toUTF8.toList = digest t.toUTF8.toList := by
    constructor
    · intro h
      have hlists := congrArg String.toList h
      simp only [hexDigest, String.toList_join, List.flatMap_map] at hlists
      exact flatMap_hexWord_inj hlists
    · intro h
      rw [hexDigest, h, ← hexDigest]
  rw [hdigest, Collide, ← toUTF8_inj]
  constructor
  · intro h
    by_cases heq : s.toUTF8.toList = t.toUTF8.toList
    · exact Or.inl heq
    · exact Or.inr ⟨heq, h⟩
  · rintro (heq | ⟨-, h⟩)
    · rw [heq]
    · exact h

end ShapeFlow.Sha256
