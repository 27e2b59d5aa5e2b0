import ShapeFlow.Proofs.Account
import ShapeFlow.Proofs.Digest
import ShapeFlow.Proofs.Written
import ShapeFlow.Report.Record

/-!
# Records determine what they record

* `ErrorInfo.toJson_injective`, `Diagnostic.toJson_injective`, `Verdict.toJson_injective`: a record
  with optional fields is told apart field by field, one with kinds by its tag.
* `Report.canonical_determines`: **the canonical record determines what it records**, and its digest
  does so unless two records collide.
-/

namespace ShapeFlow

/-- The value of a field of an object; a record with optional fields is read off by it. -/
def Json.field? (name : String) : Json → Option Json
  | .object fields => fields.lookup name
  | _ => none

/-! ### Shapes and errors -/

/-- An open dimension is `null`, which no size is. -/
theorem Dim.toJson_injective : Function.Injective Dim.toJson := by
  intro a b h
  cases a <;> cases b <;> simp_all [Dim.toJson, UInt64.toNat_inj]

theorem Shape.toJson_injective : Function.Injective Shape.toJson := by
  intro a b h
  have hdims : a.dims = b.dims := Dim.toJson_injective.list_map (Json.array.inj h)
  cases a
  cases b
  exact congrArg Shape.mk hdims

/-- An error is told apart by its kind, then by its details. -/
theorem ShapeError.toJson_injective : Function.Injective ShapeError.toJson := by
  intro a b h
  cases a <;> cases b <;>
    simp_all [ShapeError.toJson, ShapeError.kind, ShapeError.details, Json.ofNat, UInt64.toNat_inj,
      Shape.toJson_injective.eq_iff]

/-! ### Diagnostics -/

/-- The parts of a diagnostic by the names of their fields. -/
theorem Diagnostic.field?_toJson (d : Diagnostic) :
    ["code", "level", "message", "hint", "node", "edge"].map d.toJson.field? =
      [d.code.map (fun code => .text code.text), some (.text d.level.text), some (.text d.message),
        d.hint.map .text, d.node.map .text, d.edge.map .text] := by
  obtain ⟨level, message, _ | code, _ | hint, _ | node, _ | edge⟩ := d <;> rfl

theorem Level.text_injective : Function.Injective Level.text := by
  intro a b h
  cases a <;> cases b <;> first | rfl | exact absurd h (by decide)

theorem text_injective : Function.Injective Json.text := fun _ _ h => Json.text.inj h

theorem Code.text_injective : Function.Injective Code.text := by
  rintro ⟨a⟩ ⟨b⟩ rfl
  rfl

/-- A diagnostic is determined by its record: a field that is absent there is absent in it. -/
theorem Diagnostic.toJson_injective : Function.Injective Diagnostic.toJson := by
  intro d e h
  have hparts := d.field?_toJson
  rw [h, e.field?_toJson] at hparts
  simp only [List.cons.injEq, Option.some.injEq, Json.text.injEq, and_true] at hparts
  obtain ⟨hcode, hlevel, hmessage, hhint, hnode, hedge⟩ := hparts
  have hcode := Option.map_injective (text_injective.comp Code.text_injective) hcode
  have hlevel := Level.text_injective hlevel
  have hhint := Option.map_injective text_injective hhint
  have hnode := Option.map_injective text_injective hnode
  have hedge := Option.map_injective text_injective hedge
  cases d
  cases e
  simp_all

/-! ### Records determine what they record -/

/-- The record without any space. -/
def Account.canonical (a : Account) : String := a.toJson.compact

/-- The digest of the canonical record. -/
def Account.fingerprint (a : Account) : String := Sha256.hexDigest a.canonical

theorem NodeState.text_injective : Function.Injective NodeState.text := by
  intro a b h
  cases a <;> cases b <;> first | rfl | exact absurd h (by decide)

/-- The parts of an error with its causes, by the names of their fields. -/
theorem ErrorInfo.field?_toJson (e : ErrorInfo) :
    ["code", "message", "error", "handle", "edges", "origin"].map e.toJson.field? =
      [some (.text e.code.text), some (.text e.message), some e.error.toJson,
        e.handle.map .text, if e.edges.isEmpty then none else some (.array (e.edges.map .text)),
        e.origin.map .text] := by
  obtain ⟨code, message, error, _ | handle, _ | ⟨edge, edges⟩, _ | origin⟩ := e <;> rfl

/-- An error with its causes is determined by its record, where no edges and no field are the same.
-/
theorem ErrorInfo.toJson_injective : Function.Injective ErrorInfo.toJson := by
  intro d e h
  have hparts := d.field?_toJson
  rw [h, e.field?_toJson] at hparts
  simp only [List.cons.injEq, Option.some.injEq, Json.text.injEq, and_true] at hparts
  obtain ⟨hcode, hmessage, herror, hhandle, hedges, horigin⟩ := hparts
  have hcode := Code.text_injective hcode
  have herror := ShapeError.toJson_injective herror
  have hhandle := Option.map_injective text_injective hhandle
  have horigin := Option.map_injective text_injective horigin
  -- no edges and no field are the same
  have hedges : e.edges = d.edges := by
    cases hd : d.edges <;> cases he : e.edges <;>
      simp_all [text_injective.eq_iff, List.map_inj_right]
  cases d
  cases e
  simp_all

/-- An optional part is determined by its value, if no value of a part is `null` itself. -/
theorem ofOption_injective {α : Type} {f : α → Json} (hf : Function.Injective f)
    (hnull : ∀ a, f a ≠ .null) : Function.Injective (Json.ofOption f) := by
  intro a b h
  cases a with
  | none =>
    cases b with
    | none => rfl
    | some b => exact absurd h.symm (hnull b)
  | some a =>
    cases b with
    | none => exact absurd h (hnull a)
    | some b => exact congrArg some (hf h)

/-- A result is told apart by its state, its shape and its error, each on its own. -/
theorem ShapeResult.toJson_injective : Function.Injective ShapeResult.toJson := by
  intro a b h
  simp only [toJson, Json.object.injEq, List.cons.injEq, Prod.mk.injEq, Json.text.injEq, true_and,
    and_true] at h
  obtain ⟨hstate, hshape, herror⟩ := h
  have hstate := NodeState.text_injective hstate
  have hshape := ofOption_injective Shape.toJson_injective (fun _ => Json.noConfusion) hshape
  have herror := ofOption_injective ErrorInfo.toJson_injective (fun _ => Json.noConfusion) herror
  cases a
  cases b
  simp_all

/-- A verdict is told apart by its kind, then by what it carries. -/
theorem Verdict.toJson_injective : Function.Injective Verdict.toJson := by
  intro a b h
  cases a <;> cases b <;> simp [toJson] at h
  case ok.ok shape other => rw [Shape.toJson_injective h]
  case invalid.invalid code message other text => rw [Code.text_injective h.1, h.2]
  case inactive.inactive => rfl
  case ignored.ignored code other => rw [Code.text_injective h]

/-- **An account is determined by its record**: its tables entry by entry, its warnings in their
order. -/
theorem Account.toJson_injective : Function.Injective Account.toJson := by
  intro a b h
  have hfield {α : Type} {f : α → Json} (hf : Function.Injective f) :
      Function.Injective (fun entry : String × α => (entry.1, f entry.2)) :=
    Function.injective_id.prodMap hf
  simp only [toJson, Json.object.injEq, Json.array.injEq, List.cons.injEq, Prod.mk.injEq, true_and,
    and_true] at h
  obtain ⟨hnodes, hedges, hwarnings⟩ := h
  have hnodes := Table.entries_injective ((hfield ShapeResult.toJson_injective).list_map hnodes)
  have hedges := Table.entries_injective ((hfield Verdict.toJson_injective).list_map hedges)
  have hwarnings := Diagnostic.toJson_injective.list_map hwarnings
  cases a
  cases b
  simp_all

/-! ### Records hold no doubles -/

@[simp] theorem reals_text (s : String) : (Json.text s).reals = [] := rfl

@[simp] theorem reals_integer (n : Int) : (Json.integer n).reals = [] := rfl

theorem reals_ofOption {α : Type} {f : α → Json} (hf : ∀ a, (f a).reals = []) (o : Option α) :
    (Json.ofOption f o).reals = [] := by
  cases o with
  | none => rfl
  | some a => exact hf a

theorem reals_optionalField (name : String) (o : Option String) :
    (Json.optionalField name .text o).flatMap (fun field => field.2.reals) = [] := by
  cases o <;> rfl

theorem Shape.reals_toJson (s : Shape) : s.toJson.reals = [] := by
  rw [toJson, Json.reals_array, List.flatMap_eq_nil_iff, List.forall_mem_map]
  intro dim _
  cases dim <;> rfl

theorem ShapeError.reals_toJson (e : ShapeError) : e.toJson.reals = [] := by
  cases e <;> simp [toJson, details, Json.ofNat, Shape.reals_toJson]

theorem ErrorInfo.reals_toJson (e : ErrorInfo) : e.toJson.reals = [] := by
  simp [toJson, ShapeError.reals_toJson, reals_optionalField]

theorem Diagnostic.reals_toJson (d : Diagnostic) : d.toJson.reals = [] := by
  have hcode : (Json.optionalField "code" (fun code : Code => .text code.text) d.code).flatMap
      (fun field => field.2.reals) = [] := by
    cases d.code <;> rfl
  simp [toJson, reals_optionalField, hcode]

theorem ShapeResult.reals_toJson (r : ShapeResult) : r.toJson.reals = [] := by
  simp [toJson, reals_ofOption Shape.reals_toJson, reals_ofOption ErrorInfo.reals_toJson]

theorem Verdict.reals_toJson (v : Verdict) : v.toJson.reals = [] := by
  cases v <;> simp [toJson, Shape.reals_toJson]

/-- A record holds texts and whole numbers only, so nothing in it is rounded when it is written. -/
theorem Account.reals_toJson (a : Account) : a.toJson.reals = [] := by
  have htable {α : Type} {f : α → Json} (hf : ∀ a, (f a).reals = []) (t : Table α) :
      (Json.object (t.entries.map (fun entry => (entry.1, f entry.2)))).reals = [] := by
    rw [Json.reals_object, List.flatMap_eq_nil_iff, List.forall_mem_map]
    exact fun entry _ => hf entry.2
  have hnodes := htable ShapeResult.reals_toJson a.nodes
  have hedges := htable Verdict.reals_toJson a.edges
  have hwarnings : (Json.array (a.warnings.map Diagnostic.toJson)).reals = [] := by
    rw [Json.reals_array, List.flatMap_eq_nil_iff, List.forall_mem_map]
    exact fun d _ => d.reals_toJson
  rw [toJson, Json.reals_object]
  simp only [List.flatMap_cons, List.flatMap_nil, List.append_nil]
  rw [hnodes, hedges, hwarnings]
  rfl

/-! ### The canonical record -/

/-- Two accounts are written alike only if they are the same. -/
theorem Account.canonical_inj {a b : Account} : a.canonical = b.canonical ↔ a = b :=
  (Json.compact_inj a.reals_toJson b.reals_toJson).trans toJson_injective.eq_iff

/-- Equal fingerprints stem from equal accounts, or from two records that collide. -/
theorem Account.fingerprint_eq_iff {a b : Account} : a.fingerprint = b.fingerprint ↔
    a = b ∨ Sha256.Collide a.canonical.toUTF8.toList b.canonical.toUTF8.toList := by
  rw [fingerprint, fingerprint, Sha256.hexDigest_eq_iff, canonical_inj]

namespace Report

/-- What is written of a computation is what is written of its account. -/
theorem canonical_account (r : Recomputation) : r.account.canonical = canonical r := by
  rw [Account.canonical, r.toJson_account, canonical]

theorem fingerprint_account (r : Recomputation) : r.account.fingerprint = fingerprint r := by
  rw [Account.fingerprint, canonical_account, fingerprint]

/-- **The canonical record determines what it records**, and so does its digest unless two records
collide. Both hold of any accounts, whose parts need not come from a computation, and of the
computations among them. -/
theorem canonical_determines :
    (∀ a b : Account, a.canonical = b.canonical ↔ a = b) ∧
    (∀ a b : Account, a.fingerprint = b.fingerprint ↔
      a = b ∨ Sha256.Collide a.canonical.toUTF8.toList b.canonical.toUTF8.toList) ∧
    (∀ r : Recomputation, r.account.canonical = canonical r ∧
      r.account.fingerprint = fingerprint r) ∧
    (∀ r s : Recomputation, canonical r = canonical s ↔ r = s) ∧
    (∀ r s : Recomputation, fingerprint r = fingerprint s ↔
      r = s ∨ Sha256.Collide (canonical r).toUTF8.toList (canonical s).toUTF8.toList) := by
  refine ⟨fun a b => Account.canonical_inj, fun a b => Account.fingerprint_eq_iff,
    fun r => ⟨canonical_account r, fingerprint_account r⟩, fun r s => ?_, fun r s => ?_⟩
  · rw [← canonical_account, ← canonical_account, Account.canonical_inj,
      Recomputation.account_injective.eq_iff]
  · rw [← canonical_account, ← canonical_account, ← fingerprint_account, ← fingerprint_account,
      Account.fingerprint_eq_iff, Recomputation.account_injective.eq_iff]

end Report

end ShapeFlow
