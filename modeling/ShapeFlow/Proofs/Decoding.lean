import ShapeFlow.Proofs.Finite
import ShapeFlow.Proofs.Table
import ShapeFlow.Proofs.Written
import Mathlib.Data.List.Forall2

/-!
# Values and their decoding

* `mapM_eq_ok_iff`: a list of outcomes succeeds item by item.
* `Json.Fits`: what a decoder can return: the nesting has room, numbers are in range, and objects
  are in order.
* `Json.fits_of_decode`: **what is decoded fits.**
* `Json.decode_tree`: **what fits is decoded from its own tree**, if its doubles are read back.
* `Json.ofText_eq_ok_iff`, `Json.elements_eq_ok_iff`, `Json.decode_eq_array_iff`: what texts and
  arrays are decoded to.
-/

namespace ShapeFlow

/-- A list of outcomes succeeds item by item. -/
theorem mapM_eq_ok_iff {ε α β : Type} {f : α → Except ε β} {xs : List α} {ys : List β} :
    xs.mapM f = .ok ys ↔ List.Forall₂ (fun x y => f x = .ok y) xs ys := by
  induction xs generalizing ys with
  | nil =>
    rw [List.mapM_nil, List.forall₂_nil_left_iff]
    exact ⟨fun h => (Except.ok.inj h).symm, fun h => congrArg Except.ok h.symm⟩
  | cons x xs ih =>
    rw [List.mapM_cons, bind_eq_ok_iff, List.forall₂_cons_left_iff]
    constructor
    · rintro ⟨y, hy, h⟩
      obtain ⟨ys', hys, h⟩ := bind_eq_ok_iff.1 h
      cases h
      exact ⟨y, ys', hy, ih.1 hys, rfl⟩
    · rintro ⟨y, ys', hy, hys, rfl⟩
      exact ⟨y, hy, bind_eq_ok_iff.2 ⟨ys', ih.2 hys, rfl⟩⟩

/-- Items that succeed when they are made of other things do so in a list. -/
theorem mapM_map_eq_ok {ε α β γ : Type} {f : β → Except ε γ} {g : α → β} {k : α → γ} {xs : List α}
    (h : ∀ x ∈ xs, f (g x) = .ok (k x)) : (xs.map g).mapM f = .ok (xs.map k) := by
  rw [mapM_eq_ok_iff, List.forall₂_map_left_iff, List.forall₂_map_right_iff, List.forall₂_same]
  exact h

/-- Items that succeed when they are related to other things do so in a list. -/
theorem mapM_eq_ok_of_forall₂ {ε α β γ : Type} {R : α → β → Prop} {f : β → Except ε γ} {k : α → γ}
    {xs : List α} {ys : List β} (h : List.Forall₂ R xs ys) (hf : ∀ x y, R x y → f y = .ok (k x)) :
    ys.mapM f = .ok (xs.map k) := by
  rw [mapM_eq_ok_iff, List.forall₂_map_right_iff]
  exact h.flip.imp fun y x hxy => hf x y hxy

/-- Every result of a list of outcomes is the result of an item. -/
theorem exists_of_mem_forall₂ {α β : Type} {R : α → β → Prop} {xs : List α} {ys : List β} {y : β}
    (h : List.Forall₂ R xs ys) (hy : y ∈ ys) : ∃ x ∈ xs, R x y := by
  induction h with
  | nil => cases hy
  | cons hfirst _ ih =>
    rcases List.mem_cons.1 hy with rfl | hy
    · exact ⟨_, List.mem_cons_self .., hfirst⟩
    · obtain ⟨x, hx, hR⟩ := ih hy
      exact ⟨x, List.mem_cons_of_mem _ hx, hR⟩

namespace Table

variable {α : Type}

/-- What holds of the entries of a table and of a new one holds after its insertion. -/
theorem forall_insert {P : String × α → Prop} {t : Table α} (h : ∀ entry ∈ t.entries, P entry)
    {key : String} {value : α} (hnew : P (key, value)) :
    ∀ entry ∈ (t.insert key value).entries, P entry := by
  intro entry hentry
  rcases mem_place hentry with rfl | hentry
  · exact hnew
  · exact h entry hentry

/-- What a table made of entries holds is one of them. -/
theorem mem_ofList {entries : List (String × α)} {entry : String × α}
    (h : entry ∈ (ofList entries).entries) : entry ∈ entries := by
  induction entries using List.reverseRecOn with
  | nil => cases h
  | append_singleton entries last ih =>
    rw [ofList_concat] at h
    rcases mem_place h with rfl | h
    · exact List.mem_append_right _ (List.mem_singleton_self _)
    · exact List.mem_append_left _ (ih h)

/-- A table is made again of its own entries. -/
theorem ofList_entries (t : Table α) : ofList t.entries = t := by
  refine ext_get? fun key => Option.ext fun value => ?_
  rw [get?_ofList_eq_some_iff t.names_nodup, get?_eq_some_iff]

end Table

namespace Json

open Decode

/-! ### Decoders of containers item by item -/

theorem decodeItems_eq (room : Nat) (items : List Tree) :
    decodeItems room items = items.mapM (decode room) := by
  induction items with
  | nil => rfl
  | cons item rest ih => rw [decodeItems, List.mapM_cons, ih]

/-- A field under its name. -/
theorem decodeFields_eq (room : Nat) (fields : List (Option String × Tree)) :
    decodeFields room fields = fields.mapM (fun field => do
      let key ← name field.1
      return (key, ← decode room field.2)) := by
  induction fields with
  | nil => rfl
  | cons field rest ih =>
    rw [decodeFields, List.mapM_cons, ih]
    cases name field.1 with
    | error e => rfl
    | ok key =>
      rw [ok_bind, ok_bind]
      cases decode room field.2 <;> rfl

/-- A field is decoded from its name and its value. -/
theorem field_eq_ok_iff {α : Type} {value : Tree → Except Fault α}
    {field : Option String × Tree} {entry : String × α} :
    (do let key ← name field.1; return (key, ← value field.2) : Except Fault (String × α)) =
        .ok entry ↔
      field.1 = some entry.1 ∧ value field.2 = .ok entry.2 := by
  rw [bind_eq_ok_iff]
  constructor
  · rintro ⟨key, hkey, h⟩
    obtain ⟨v, hv, h⟩ := bind_eq_ok_iff.1 h
    cases h
    refine ⟨?_, hv⟩
    rcases field with ⟨_ | key', t⟩
    · cases hkey
    · cases hkey
      rfl
  · rintro ⟨hkey, hvalue⟩
    refine ⟨entry.1, by rw [hkey]; rfl, bind_eq_ok_iff.2 ⟨entry.2, hvalue, rfl⟩⟩

/-! ### What fits -/

/-- What a decoder with so much room can return: the nesting has room, numbers are in range, and the
fields of objects are in order. -/
inductive Fits : Nat → Json → Prop
  | null {room : Nat} : Fits room .null
  | bool {room : Nat} (b : Bool) : Fits room (.bool b)
  | number {room : Nat} {v : Json} : Numeral.Holds v → Fits room v
  | text {room : Nat} (s : String) : Fits room (.text s)
  | array {room : Nat} {items : List Json} :
      (∀ item ∈ items, Fits room item) → Fits (room + 1) (.array items)
  | object {room : Nat} {fields : List (String × Json)} : Ascending fields →
      (∀ field ∈ fields, Fits room field.2) → Fits (room + 1) (.object fields)

/-- **What holds of a tree once it holds of its parts.** -/
theorem Tree.induct {motive : Tree → Prop} (null : motive .null) (bool : ∀ b, motive (.bool b))
    (number : ∀ n, motive (.number n)) (text : ∀ s, motive (.text s))
    (array : ∀ (items : List Tree) stop, (∀ item ∈ items, motive item) → motive (.array items stop))
    (object : ∀ (fields : List (Option String × Tree)) stop, (∀ field ∈ fields, motive field.2) →
      motive (.object fields stop)) (broken : ∀ halt, motive (.broken halt)) : ∀ t, motive t := by
  exact @Tree.rec motive (fun items => ∀ item ∈ items, motive item)
    (fun fields => ∀ field ∈ fields, motive field.2) (fun field => motive field.2)
    null bool number text array object broken
    (List.forall_mem_nil _) (fun _ _ hitem hrest => List.forall_mem_cons.2 ⟨hitem, hrest⟩)
    (List.forall_mem_nil _) (fun _ _ hfield hrest => List.forall_mem_cons.2 ⟨hfield, hrest⟩)
    (fun _ _ h => h)

/-- **What is decoded fits.** -/
theorem fits_of_decode {t : Tree} {room : Nat} {v : Json} (h : decode room t = .ok v) :
    Fits room v := by
  induction t using Tree.induct generalizing room v with
  | null =>
    rw [decode] at h
    cases h
    exact .null
  | bool b =>
    rw [decode] at h
    cases h
    exact .bool b
  | number n =>
    rw [decode] at h
    split at h
    · next value hvalue =>
      cases h
      exact .number (Numeral.holds_of_value? hvalue)
    · cases h
  | text s =>
    cases s with
    | none => cases h
    | some s =>
      cases h
      exact .text s
  | array items stop ih =>
    cases room with
    | zero => cases h
    | succ room =>
      rw [decode, decodeItems_eq] at h
      obtain ⟨values, hvalues, h⟩ := bind_eq_ok_iff.1 h
      obtain ⟨_, _, h⟩ := bind_eq_ok_iff.1 h
      cases h
      refine .array fun value hvalue => ?_
      obtain ⟨item, hitem, hdecode⟩ := exists_of_mem_forall₂ (mapM_eq_ok_iff.1 hvalues) hvalue
      exact ih item hitem hdecode
  | object fields stop ih =>
    cases room with
    | zero => cases h
    | succ room =>
      rw [decode, decodeFields_eq] at h
      obtain ⟨entries, hentries, h⟩ := bind_eq_ok_iff.1 h
      obtain ⟨_, _, h⟩ := bind_eq_ok_iff.1 h
      cases h
      -- sorting keeps one field of a name, and makes up none
      refine .object (Table.ofList entries).ascending fun entry hentry => ?_
      obtain ⟨field, hfield, hdecode⟩ :=
        exists_of_mem_forall₂ (mapM_eq_ok_iff.1 hentries) (Table.mem_ofList hentry)
      exact ih field hfield (field_eq_ok_iff.1 hdecode).2
  | broken halt => cases h

/-- The doubles of what fits are finite. -/
theorem Fits.isFinite_of_mem {room : Nat} {v : Json} (h : Fits room v) {x : Double}
    (hx : x ∈ v.reals) : x.isFinite := by
  induction h with
  | @number room v hv =>
    cases v with
    | real y =>
      rw [List.mem_singleton.1 hx]
      exact hv
    | integer n => cases hx
    | _ => cases hv
  | array _ ih =>
    rw [reals_array] at hx
    obtain ⟨item, hitem, hx⟩ := List.mem_flatMap.1 hx
    exact ih item hitem hx
  | object _ _ ih =>
    rw [reals_object] at hx
    obtain ⟨field, hfield, hx⟩ := List.mem_flatMap.1 hx
    exact ih field hfield hx
  | _ => cases hx

/-- **What fits is decoded from its own tree**, if its doubles are read back. -/
theorem decode_tree {room : Nat} {v : Json} (h : Fits room v)
    (hreals : ∀ x ∈ v.reals, ReadsBack x) : decode room (tree v) = .ok v := by
  induction h with
  | null => rw [tree, decode]
  | bool b => rw [tree, decode]
  | text s => rw [tree, decode]
  | @number room v hv =>
    cases v with
    | integer n =>
      rw [tree, decode, value?_ofInt hv.1 hv.2]
    | real x =>
      obtain ⟨n, hread, hn⟩ := (hreals x (List.mem_singleton_self x)).exists_numeral
      have hnumeral : Numeral.ofReal x = n := by
        rw [Numeral.ofReal, hread]
      rw [tree, decode, hnumeral, hn]
    | _ => cases hv
  | @array room items _ ih =>
    have hitems : (items.map tree).mapM (decode room) = .ok (items.map id) := by
      refine mapM_map_eq_ok fun item hitem => ih item hitem fun x hx => ?_
      exact hreals x (mem_reals_array hitem hx)
    rw [tree, itemTrees_eq, decode, decodeItems_eq, hitems, List.map_id]
    rfl
  | @object room fields hasc _ ih =>
    have hfields : decodeFields room (fields.map (fun field => (some field.1, tree field.2))) =
        .ok (fields.map id) := by
      rw [decodeFields_eq]
      refine mapM_map_eq_ok fun field hfield => field_eq_ok_iff.2 ⟨rfl, ?_⟩
      exact ih field hfield fun x hx => hreals x (mem_reals_object hfield hx)
    -- fields in order are sorted already, so none is lost
    have hsorted : sortFields fields = fields :=
      congrArg Table.entries (Table.ofList_entries ⟨fields, hasc⟩)
    rw [tree, fieldTrees_eq, decode, hfields, ok_bind, List.map_id, hsorted]
    rfl

/-! ### Lists and objects of one kind -/

variable {α β : Type} {room : Nat}

/-- **A text is decoded from its tree** if only space stands behind it. -/
theorem ofText_eq_ok_iff {decode : Decoder α} {text : String} {a : α} :
    ofText decode text = .ok a ↔ decode maxOpen (Tree.read text).1 = .ok a ∧
      ∃ rest, (Tree.read text).2 = some rest ∧ Tree.skipSpace rest = [] := by
  unfold ofText
  simp only [bind_eq_ok_iff]
  constructor
  · rintro ⟨b, hb, h⟩
    split at h
    · next rest hrest =>
      split at h
      · next hspace =>
        cases h
        exact ⟨hb, rest, hrest, List.isEmpty_iff.1 hspace⟩
      · cases h
    · cases h
  · rintro ⟨ha, rest, hrest, hspace⟩
    refine ⟨a, ha, ?_⟩
    rw [hrest]
    dsimp only
    rw [hspace]
    rfl

theorem close_eq_ok_iff {stop : Option Halt} {u : Unit} : close stop = .ok u ↔ stop = none := by
  cases stop <;> simp [close]

/-- **A list is decoded from an array** that has come to its end, item by item. -/
theorem elements_eq_ok_iff {item : Decoder α} {t : Tree} {xs : List α} :
    elements item room t = .ok xs ↔ ∃ inner items, room = inner + 1 ∧ t = .array items none ∧
      List.Forall₂ (fun t x => item inner t = .ok x) items xs := by
  cases t with
  | array items stop =>
    cases room with
    | zero => simp [elements]
    | succ room =>
      simp only [elements, bind_eq_ok_iff, mapM_eq_ok_iff, close_eq_ok_iff]
      constructor
      · rintro ⟨values, hvalues, -, rfl, h⟩
        cases h
        exact ⟨room, items, rfl, rfl, hvalues⟩
      · rintro ⟨inner, others, hroom, htree, hvalues⟩
        cases hroom
        cases htree
        exact ⟨xs, hvalues, (), rfl, rfl⟩
  | _ => simp [elements]

/-- An array as a value is the list of its values. -/
theorem decode_eq_array_iff {t : Tree} {values : List Json} :
    decode room t = .ok (.array values) ↔ elements decode room t = .ok values := by
  cases t with
  | array items stop =>
    cases room with
    | zero => simp [decode, elements]
    | succ room =>
      cases stop <;> simp [decode, elements, decodeItems_eq, bind_eq_ok_iff, close]
  | number n =>
    cases hvalue : n.value? with
    | none => simp [decode, elements, hvalue]
    | some v =>
      have hnumber := Numeral.holds_of_value? hvalue
      cases v <;> simp_all [decode, elements, Numeral.Holds]
  | text s => cases s <;> simp [decode, elements]
  | object fields stop =>
    cases room with
    | zero => simp [decode, elements]
    | succ room => cases stop <;> simp [decode, elements, bind_eq_ok_iff, close]
  | _ => simp [decode, elements]

/-- A list is decoded item by item. -/
theorem elements_tree {item : Decoder β} {g : α → Json} {k : α → β} {xs : List α}
    (h : ∀ x ∈ xs, item room (tree (g x)) = .ok (k x)) :
    elements item (room + 1) (tree (.array (xs.map g))) = .ok (xs.map k) := by
  have hitems : ((xs.map g).map tree).mapM (item room) = .ok (xs.map k) := by
    rw [List.map_map]
    exact mapM_map_eq_ok h
  rw [tree, itemTrees_eq, elements, hitems]
  rfl

/-- An object is decoded field by field. -/
theorem fields_tree {value : Decoder α} {g : α → Json} {entries : List (String × α)}
    (h : ∀ entry ∈ entries, value room (tree (g entry.2)) = .ok entry.2) :
    fields value (room + 1) (tree (.object (entries.map (fun entry => (entry.1, g entry.2))))) =
      .ok entries := by
  rw [tree, fieldTrees_eq, fields, List.map_map, mapM_map_eq_ok, List.map_id]
  · rfl
  · exact fun entry hentry => field_eq_ok_iff.2 ⟨rfl, h entry hentry⟩

end Json

end ShapeFlow
