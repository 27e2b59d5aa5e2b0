import ShapeFlow.Flow.Result
import ShapeFlow.Proofs.Table
import Mathlib.Data.List.Basic

/-!
# Results in full

A result is either a shape or the reason why there is none, and its record says more: a state, an
output shape and an error, and of the error its code, its message and its origin. Here every part of
a record is on its own, so that it can be said how the parts belong together.

* `ShapeResult`, `Account`: what the records of a node and of a graph say, with free parts.
* `Result.full`, `Recomputation.account`: what they say of a result and of a computation.
* `Result.full_consistent`: **a node is resolved iff it has a shape and no error**, and blocked
  otherwise.
-/

namespace ShapeFlow

/-- Whether a node has a shape, as its record says it. -/
inductive NodeState where
  | resolved
  | blocked
deriving DecidableEq, Repr

/-- The word for a state. -/
def NodeState.text : NodeState → String
  | resolved => "resolved"
  | blocked => "blocked"

/-- Why a node is blocked, with every part of its record on its own. -/
structure ErrorInfo where
  code : Code
  message : String
  error : ShapeError
  handle : Option String
  edges : List EdgeId
  origin : Option NodeId
deriving DecidableEq, Repr

/-- The record of an error with its causes. -/
def ErrorInfo.toJson (e : ErrorInfo) : Json :=
  .object
    ([("code", .text e.code.text), ("message", .text e.message), ("error", e.error.toJson)]
      ++ Json.optionalField "handle" .text e.handle
      ++ (if e.edges.isEmpty then [] else [("edges", .array (e.edges.map .text))])
      ++ Json.optionalField "origin" .text e.origin)

/-- The result of a node, with every part of its record on its own. -/
structure ShapeResult where
  state : NodeState
  outputShape : Option Shape
  error : Option ErrorInfo
deriving DecidableEq, Repr

/-- The record of a result. -/
def ShapeResult.toJson (r : ShapeResult) : Json :=
  .object
    [("state", .text r.state.text), ("outputShape", Json.ofOption Shape.toJson r.outputShape),
      ("error", Json.ofOption ErrorInfo.toJson r.error)]

/-- All that a record says of a graph. The parts that one computation derives from each other are
free here: the code and the message of an error, its origin, and the state of a node. -/
structure Account where
  nodes : Table ShapeResult
  edges : Table Verdict
  warnings : List Diagnostic
deriving DecidableEq

/-- The record of an account. -/
def Account.toJson (a : Account) : Json :=
  .object
    [("nodes", .object (a.nodes.entries.map (fun entry => (entry.1, entry.2.toJson)))),
      ("edges", .object (a.edges.entries.map (fun entry => (entry.1, entry.2.toJson)))),
      ("warnings", .array (a.warnings.map Diagnostic.toJson))]

/-- Why a node is blocked, in full. -/
def Blockage.info (b : Blockage) : ErrorInfo :=
  ⟨b.error.code, b.error.message, b.error, b.handle, b.edges, b.origin?⟩

/-- The result of a node in full. -/
def Result.full : Result → ShapeResult
  | .resolved shape => ⟨.resolved, some shape, none⟩
  | .blocked blockage => ⟨.blocked, none, some blockage.info⟩

/-- A table with other values under the same names. -/
def Table.map {α β : Type} (f : α → β) (t : Table α) : Table β where
  entries := t.entries.map (Prod.map id f)
  ascending := List.pairwise_map.2 (t.ascending.imp fun h => h)

/-- A computation in full. -/
def Recomputation.account (r : Recomputation) : Account where
  nodes := r.nodes.map Result.full
  edges := r.edges
  warnings := r.warnings

/-! ### What belongs together -/

/-- **A node is resolved iff it has a shape and no error**, and blocked iff it has no shape, but an
error. -/
theorem Result.full_consistent (r : Result) :
    (r.full.state = .resolved ↔ r.full.outputShape.isSome = true ∧ r.full.error = none) ∧
    (r.full.state = .blocked ↔ r.full.outputShape = none ∧ r.full.error.isSome = true) := by
  cases r <;> simp [full]

/-- The parts of a result in full are those that are asked for. -/
theorem Result.full_parts (r : Result) :
    (r.full.state = .resolved ↔ r.isResolved = true) ∧ r.full.outputShape = r.shape? ∧
      r.full.error = r.blockage?.map Blockage.info := by
  cases r <;> simp [full, isResolved, shape?, blockage?]

theorem Table.get?_map {α β : Type} (f : α → β) (t : Table α) (key : String) :
    (t.map f).get? key = (t.get? key).map f := get?_mapEntries (fun _ => f) t key

/-- The account of a computation has the results in full, node by node. -/
theorem Recomputation.get?_account (r : Recomputation) (id : NodeId) :
    r.account.nodes.get? id = (r.nodes.get? id).map Result.full := Table.get?_map ..

/-! ### Records in full -/

/-- The record of a result is that of the result in full. -/
theorem Result.toJson_full (r : Result) : r.full.toJson = r.toJson := by
  cases r <;> rfl

/-- The record of a computation is that of its account. -/
theorem Recomputation.toJson_account (r : Recomputation) : r.account.toJson = r.toJson := by
  simp [account, Account.toJson, toJson, fields, Table.map, Result.toJson_full]

/-- Nothing is lost between a result and the result in full. -/
theorem Result.full_injective : Function.Injective Result.full := by
  intro a b h
  cases a with
  | resolved shape => cases b <;> simp_all [full]
  | blocked blockage =>
    cases b with
    | resolved shape => simp [full] at h
    | blocked other =>
      -- the error, its handle and its edges are all that a blocked node has of its own
      simp only [full, ShapeResult.mk.injEq, Option.some.injEq, true_and] at h
      obtain ⟨-, -, herror, hhandle, hedges, -⟩ := ErrorInfo.mk.inj h
      cases blockage
      cases other
      simp_all

/-- A table is its entries. -/
theorem Table.entries_injective {α : Type} :
    Function.Injective (entries : Table α → List (String × α)) := by
  rintro ⟨xs, _⟩ ⟨ys, _⟩ rfl
  rfl

theorem Table.map_injective {α β : Type} {f : α → β} (hf : Function.Injective f) :
    Function.Injective (Table.map f) := by
  intro s t h
  have hentries : (Prod.map id f : String × α → String × β).Injective :=
    Function.injective_id.prodMap hf
  exact entries_injective (hentries.list_map (congrArg entries h))

/-- Nothing is lost between a computation and its account. -/
theorem Recomputation.account_injective : Function.Injective account := by
  intro r s h
  obtain ⟨hnodes, hedges, hwarnings⟩ := Account.mk.inj h
  have hnodes := Table.map_injective Result.full_injective hnodes
  cases r
  cases s
  simp_all [account]

end ShapeFlow
