import ShapeFlow.Proofs.Canonical
import ShapeFlow.Proofs.Decoding
import ShapeFlow.Shape.Json

/-!
# Shapes in JSON texts

* `Shape.decode_eq_ok_iff`: what is decoded to a shape is the value that the shape is written as,
  and nothing else.
* `Shape.decode_tree`: **a shape is decoded from its own tree.**
* `Shape.survives_text`: **a shape is read back from its text**, so that shapes with one text are
  equal.
-/

namespace ShapeFlow

open Json

variable {room : Nat} {t : Tree} {d : Dim} {s : Shape}

/-! ## Dimensions -/

/-- **A dimension stands for one value**, and no other value stands for it. -/
theorem Dim.ofJson?_eq_some_iff {v : Json} : Dim.ofJson? v = some d ↔ v = d.toJson := by
  cases v with
  | null => cases d <;> simp [ofJson?, toJson]
  | integer n =>
    cases d with
    | known m =>
      simp only [ofJson?, toJson, Json.integer.injEq]
      split
      · next hn =>
        rw [ofNat?_eq_some_iff]
        constructor
        · rintro ⟨k, hk, heq⟩
          obtain rfl := Dim.known.inj heq
          omega
        · intro h
          exact ⟨m, by omega, rfl⟩
      · next hn => simp; omega
    | unknown =>
      simp only [ofJson?, toJson, reduceCtorEq, iff_false]
      split
      · rw [ofNat?_eq_some_iff]
        rintro ⟨k, -, heq⟩
        cases heq
      · simp
  | _ => cases d <;> simp [ofJson?, toJson]

/-- A container has another value than a dimension. -/
theorem Dim.decode_container_ne (items : List Tree) (fields : List (Option String × Tree))
    (stop : Option Halt) :
    Json.decode room (.array items stop) ≠ .ok d.toJson ∧
      Json.decode room (.object fields stop) ≠ .ok d.toJson := by
  cases room with
  | zero => simp [Json.decode]
  | succ room =>
    rw [Json.decode, Json.decode]
    constructor <;> intro h
    all_goals
      obtain ⟨_, _, h⟩ := bind_eq_ok_iff.1 h
      obtain ⟨_, _, h⟩ := bind_eq_ok_iff.1 h
      cases d <;> cases h

theorem required_eq_ok_iff {α : Type} {a? : Option α} {a : α} :
    Decode.required a? = .ok a ↔ a? = some a := by
  cases a? <;> simp [Decode.required]

/-- **A dimension is decoded from its value alone.** -/
theorem Dim.decode_eq_ok_iff : Dim.decode t = .ok d ↔ Json.decode room t = .ok d.toJson := by
  cases t with
  | null => cases d <;> simp [decode, Json.decode, toJson]
  | number n =>
    rw [decode, Json.decode]
    cases n.value? with
    | none => simp
    | some v =>
      dsimp only
      rw [required_eq_ok_iff, ofJson?_eq_some_iff, Except.ok.injEq]
  | bool b => cases d <;> simp [decode, Json.decode, toJson]
  | text s => cases s <;> cases d <;> simp [decode, Json.decode, toJson]
  | broken halt => simp [decode, Json.decode]
  | array items stop => simpa [decode] using (decode_container_ne items [] stop).1
  | object fields stop => simpa [decode] using (decode_container_ne [] fields stop).2

/-! ## Shapes -/

/-- **A shape is decoded from its value alone**: whatever else the text of the value may look like,
as a JSON value it is the array that the shape is written as. -/
theorem Shape.decode_eq_ok_iff :
    Shape.decode room t = .ok s ↔ Json.decode room t = .ok s.toJson := by
  have hmap : Shape.decode room t = .ok s ↔
      Decode.elements (fun _ item => Dim.decode item) room t = .ok s.dims := by
    obtain ⟨dims⟩ := s
    cases h : Decode.elements (fun _ item => Dim.decode item) room t <;>
      simp [Shape.decode, h, Except.map]
  -- Both decoders open the same array, and differ only in what they make of its items.
  rw [hmap, toJson, decode_eq_array_iff, elements_eq_ok_iff, elements_eq_ok_iff]
  simp only [List.forall₂_map_right_iff, ← Dim.decode_eq_ok_iff]

/-- **A shape is decoded from its own tree.** No dimension passes through a double. -/
theorem Shape.decode_tree (s : Shape) : Shape.decode (room + 1) (tree s.toJson) = .ok s := by
  have hfits : Fits (room + 1) s.toJson := by
    refine .array fun item hitem => ?_
    obtain ⟨d, -, rfl⟩ := List.mem_map.1 hitem
    cases d with
    | known n =>
      have hlt := n.toNat_lt
      exact .number ⟨by omega, by simp only [UInt64.size]; omega⟩
    | unknown => exact .null
  have hreals : ∀ x ∈ s.toJson.reals, ReadsBack x := by simp [s.reals_toJson]
  exact decode_eq_ok_iff.2 (Json.decode_tree hfits hreals)

theorem Shape.ofText_compact (s : Shape) : Decode.ofText Shape.decode s.toJson.compact = .ok s := by
  have hread := read_compact (v := s.toJson) (by simp [s.reals_toJson])
  exact ofText_eq_ok_iff.2 ⟨by rw [hread]; exact s.decode_tree, [], by rw [hread], rfl⟩

theorem Shape.ofText_pretty (s : Shape) : Decode.ofText Shape.decode s.toJson.pretty = .ok s := by
  have hread := read_pretty (v := s.toJson) (by simp [s.reals_toJson])
  exact ofText_eq_ok_iff.2 ⟨by rw [hread]; exact s.decode_tree, [], by rw [hread], rfl⟩

/-- **Shapes survive as text.** A shape is read back from its text, so that different shapes have
different texts; and whatever text a shape is read from, that text has the value that the shape is
written as, and from the text of the shape the shape is read again. -/
theorem Shape.survives_text :
    (∀ s : Shape, Decode.ofText Shape.decode s.toJson.compact = .ok s ∧
      Decode.ofText Shape.decode s.toJson.pretty = .ok s) ∧
    Function.Injective (fun s : Shape => s.toJson.compact) ∧
    ∀ (text : String) (s : Shape), Decode.ofText Shape.decode text = .ok s →
      Decode.ofText Json.decode text = .ok s.toJson ∧
      Decode.ofText Shape.decode s.toJson.compact = .ok s := by
  refine ⟨fun s => ⟨s.ofText_compact, s.ofText_pretty⟩, fun s t hst => ?_, fun text s h => ?_⟩
  · have hs := s.ofText_compact
    rw [show s.toJson.compact = t.toJson.compact from hst, t.ofText_compact] at hs
    exact (Except.ok.inj hs).symm
  · obtain ⟨htree, hrest⟩ := ofText_eq_ok_iff.1 h
    exact ⟨ofText_eq_ok_iff.2 ⟨decode_eq_ok_iff.1 htree, hrest⟩, s.ofText_compact⟩

/-- The largest dimension beside an unknown one, in a text with blanks. -/
theorem Shape.survives_text_widest :
    Decode.ofText Shape.decode " [18446744073709551615, null ]" =
      .ok ⟨[.known 18446744073709551615, .unknown]⟩ ∧
    (Shape.mk [.known 18446744073709551615, .unknown]).toJson.compact =
      "[18446744073709551615,null]" ∧
    Decode.ofText Shape.decode "[18446744073709551615,null]" =
      .ok ⟨[.known 18446744073709551615, .unknown]⟩ := by
  have hread : Decode.ofText Shape.decode " [18446744073709551615, null ]" =
      .ok ⟨[.known 18446744073709551615, .unknown]⟩ := by decide +kernel
  have hcompact : (Shape.mk [.known 18446744073709551615, .unknown]).toJson.compact =
      "[18446744073709551615,null]" := by decide +kernel
  have hagain := (Shape.survives_text.2.2 _ _ hread).2
  rw [hcompact] at hagain
  exact ⟨hread, hcompact, hagain⟩

end ShapeFlow
