import ShapeFlow.Json.Tree
import ShapeFlow.Json.Writer
import Mathlib.Data.List.Basic

/-!
# Strings read back

* `Json.scanText_spelled`: one spelled character is read as one piece, which stands for it.
* `Json.readText_quote`: **a quoted text is read back**, whatever follows it.
-/

namespace ShapeFlow.Json

open Json.Tree

variable {c : Char} {cs rest : List Char} {piece : Piece} {pieces : List Piece}

/-- A piece of a string stands for a character: as itself, or as a code unit that is no half of a
pair. -/
def Piece.StandsFor (piece : Piece) (c : Char) : Prop :=
  piece = .char c ∨ (piece = .unit c.toNat ∧ c.toNat < 0xd800)

/-- A control without a letter of its own is written with the four digits of its code unit. -/
theorem codeUnit?_control : ∀ n < 0x20,
    (if n < 0x10 then "\\u000" ++ Text.hex n else "\\u00" ++ Text.hex n).toList =
      ['\\', 'u', '0', '0', Nat.digitChar (n / 16), Nat.digitChar (n % 16)] ∧
    codeUnit? '0' '0' (Nat.digitChar (n / 16)) (Nat.digitChar (n % 16)) = some n := by
  decide

theorem scanText_quote : scanText ('"' :: rest) = ([], .ok rest) := by
  rw [scanText.eq_def]
  rfl

theorem scanText_plain (hquote : c ≠ '"') (hslash : c ≠ '\\') (hplain : 0x20 ≤ c.toNat) :
    scanText (c :: cs) = (.char c :: (scanText cs).1, (scanText cs).2) := by
  rw [scanText.eq_def]
  simp [hquote, hslash, Nat.not_lt.2 hplain]

theorem scanText_unit {a b c d : Char} {n : Nat} (h : codeUnit? a b c d = some n) :
    scanText ('\\' :: 'u' :: a :: b :: c :: d :: cs) =
      (.unit n :: (scanText cs).1, (scanText cs).2) := by
  rw [scanText.eq_def]
  simp [h]

/-- **A spelled character** is read as one piece that stands for it. -/
theorem scanText_spelled (c : Char) (cs : List Char) : ∃ piece : Piece, piece.StandsFor c ∧
    scanText ((spelled c).toList ++ cs) = (piece :: (scanText cs).1, (scanText cs).2) := by
  unfold spelled
  split
  case h_8 hquote hslash _ _ _ _ _ =>
    -- a character without a letter: a control is escaped, all else stands for itself
    by_cases hcontrol : c.toNat < 0x20
    · obtain ⟨htext, hunit⟩ := codeUnit?_control c.toNat hcontrol
      rw [if_pos hcontrol, htext]
      exact ⟨.unit c.toNat, Or.inr ⟨rfl, by omega⟩, scanText_unit hunit⟩
    · have hletter : ¬ c.toNat < 0x10 := by omega
      rw [if_neg hletter, if_neg hcontrol, String.toList_singleton]
      exact ⟨.char c, Or.inl rfl, scanText_plain hquote hslash (by omega)⟩
  all_goals
    refine ⟨.char _, Or.inl rfl, ?_⟩
    rw [scanText.eq_def]
    rfl

theorem join?_unit {n : Nat} (h : n < 0xd800) :
    Piece.join? (.unit n :: pieces) = (Piece.join? pieces).map (Char.ofNat n :: ·) := by
  have hhigh : Piece.isHigh n = false := by
    simp only [Piece.isHigh, Bool.and_eq_false_iff, decide_eq_false_iff_not]
    omega
  have hlow : Piece.isLow n = false := by
    simp only [Piece.isLow, Bool.and_eq_false_iff, decide_eq_false_iff_not]
    omega
  rcases pieces with _ | ⟨_ | m, rest⟩ <;> simp [Piece.join?, hhigh, hlow]

/-- Pieces that stand for characters are joined to these. -/
theorem join?_of_standsFor (h : List.Forall₂ Piece.StandsFor pieces cs) :
    Piece.join? pieces = some cs := by
  induction h with
  | nil => rfl
  | cons hfirst _ ih =>
    rcases hfirst with rfl | ⟨rfl, hsmall⟩
    · rw [Piece.join?, ih, Option.map_some]
    · rw [join?_unit hsmall, ih, Option.map_some, Char.ofNat_toNat]

theorem quote_toList (s : String) :
    (quote s).toList = '"' :: (s.toList.flatMap (fun c => (spelled c).toList) ++ ['"']) := by
  simp [quote, String.toList_join, List.flatMap_map]

/-- **A quoted text is read back**, whatever follows it. -/
theorem readText_quote (s : String) (rest : List Char) :
    readText (s.toList.flatMap (fun c => (spelled c).toList) ++ '"' :: rest) =
      .ok (some s, rest) := by
  have hscan : ∀ cs : List Char, ∃ pieces, List.Forall₂ Piece.StandsFor pieces cs ∧
      scanText (cs.flatMap (fun c => (spelled c).toList) ++ '"' :: rest) = (pieces, .ok rest) := by
    intro cs
    induction cs with
    | nil => exact ⟨[], .nil, scanText_quote⟩
    | cons c cs ih =>
      obtain ⟨pieces, hpieces, hcs⟩ := ih
      obtain ⟨piece, hpiece, hc⟩ :=
        scanText_spelled c (cs.flatMap (fun c => (spelled c).toList) ++ '"' :: rest)
      refine ⟨piece :: pieces, .cons hpiece hpieces, ?_⟩
      rw [List.flatMap_cons, List.append_assoc, hc, hcs]
  obtain ⟨pieces, hpieces, hs⟩ := hscan s.toList
  simp [readText, hs, join?_of_standsFor hpieces]

end ShapeFlow.Json
