import ShapeFlow.Text.Quoted
import Mathlib.Data.List.Basic
import Mathlib.Tactic.IntervalCases

/-!
# Digits and bytes of texts

* `Text.pushn_toList`: a text filled up with one character.
* `Text.hexNumber_toDigits`: a number is read back from its digits in base 16.
* `Text.toUTF8_inj`: a text is determined by its bytes.
-/

namespace ShapeFlow.Text

theorem pushn_toList (c : Char) (n : Nat) : ("".pushn c n).toList = List.replicate n c := by
  rw [String.pushn_eq_repeat_push]
  induction n with
  | zero => rfl
  | succ n ih => rw [Nat.repeat, String.toList_push, ih, List.replicate_succ']

/-! ### Digits in base 16 -/

/-- The value of a digit in base 16. -/
def hexValue (c : Char) : Nat := if c.isDigit then c.toNat - 48 else c.toNat - 87

/-- The number that digits in base 16 spell. -/
def hexNumber (digits : List Char) : Nat := digits.foldl (fun n c => 16 * n + hexValue c) 0

theorem hexNumber_append (xs : List Char) (c : Char) :
    hexNumber (xs ++ [c]) = 16 * hexNumber xs + hexValue c := by
  rw [hexNumber, List.foldl_append]
  rfl

/-- The digits of a number in base 16 are read as this number. -/
theorem hexNumber_toDigits (n : Nat) : hexNumber (Nat.toDigits 16 n) = n := by
  have hdigit : ∀ d < 16, hexValue (Nat.digitChar d) = d := by decide
  induction n using Nat.strong_induction_on with
  | _ n ih =>
    rw [Nat.toDigits_eq_if (by decide)]
    split
    · next hlt =>
      have hsingle := hexNumber_append [] (Nat.digitChar n)
      rw [List.nil_append, hdigit n hlt] at hsingle
      rw [hsingle]
      exact Nat.zero_add n
    · next hge =>
      rw [hexNumber_append, ih (n / 16) (by omega), hdigit _ (by omega)]
      omega

theorem hexNumber_zeros (n : Nat) (digits : List Char) :
    hexNumber (List.replicate n '0' ++ digits) = hexNumber digits := by
  induction n with
  | zero => rfl
  | succ n ih => rw [← ih]; rfl

/-! ### Bytes -/

theorem toList_loop (bytes : ByteArray) (i : Nat) (taken : List UInt8) :
    ByteArray.toList.loop bytes i taken = taken.reverse ++ bytes.data.toList.drop i := by
  fun_induction ByteArray.toList.loop bytes i taken with
  | case1 i taken hlt ih =>
    have hi : i < bytes.data.toList.length := by simpa using hlt
    have hget : bytes.get! i = bytes.data.toList[i] := getElem!_pos bytes.data i hlt
    rw [ih, List.drop_eq_getElem_cons hi, hget, List.reverse_cons, List.append_assoc,
      List.singleton_append]
  | case2 i taken hge =>
    have hi : bytes.data.toList.length ≤ i := by simpa using hge
    rw [List.drop_eq_nil_of_le hi, List.append_nil]

/-- The library lists bytes by a loop, which gives the underlying list. -/
theorem toList_bytes (bytes : ByteArray) : bytes.toList = bytes.data.toList := by
  rw [ByteArray.toList, toList_loop]
  rfl

/-- **A text is determined by its bytes.** -/
theorem toUTF8_inj {s t : String} : s.toUTF8.toList = t.toUTF8.toList ↔ s = t := by
  rw [toList_bytes, toList_bytes, Array.toList_inj, ← ByteArray.ext_iff]
  exact String.toByteArray_inj

end ShapeFlow.Text
