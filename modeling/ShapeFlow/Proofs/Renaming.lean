import ShapeFlow.Proofs.Equations
import Mathlib.Data.Set.Function

/-!
# Other names

Nodes and edges have names, by which errors, results and warnings speak of them. Renaming both
renames all of these.

* `Table.Renamed`: the entries of two tables correspond to each other under other names.
* `Rule.Fault.error_rename`: a rule speaks of no node.
* `Node.evaluate_rename`: **the result of a renamed node is its result renamed**, if those of its
  sources are.
-/

namespace ShapeFlow

open List

/-- What is found among images is the image of what is found, if the tests agree. -/
theorem find?_map_congr {α β : Type} {m : α → β} {p : β → Bool} {q : α → Bool} {xs : List α}
    (h : ∀ x ∈ xs, p (m x) = q x) : (xs.map m).find? p = (xs.find? q).map m := by
  induction xs with
  | nil => rfl
  | cons x xs ih =>
    obtain ⟨hx, hxs⟩ := List.forall_mem_cons.1 h
    rw [List.map_cons, List.find?_cons, List.find?_cons, hx]
    cases q x with
    | true => rfl
    | false => exact ih hxs

/-! ## Tables -/

namespace Table

variable {α β : Type} {name : String → String} {t : Table α} {key : String} {value : α}

/-- The entries of a table under other names. -/
def rename (name : String → String) (t : Table α) : Table α :=
  ofList (t.entries.map (fun entry => (name entry.1, entry.2)))

/-- The entries of two tables correspond to each other, under other names. -/
structure Renamed (name : String → String) (R : α → β → Prop) (t : Table α) (u : Table β) :
    Prop where
  names : u.names.Perm (t.names.map name)
  values : ∀ key value, t.get? key = some value →
    ∃ value', u.get? (name key) = some value' ∧ R value value'

/-- The names of a renamed table are the new names, in an order of their own. -/
theorem names_perm {u : Table β} (hname : Set.InjOn name {key | key ∈ t.names})
    (h : ∀ key, key ∈ u.names ↔ ∃ old ∈ t.names, name old = key) :
    u.names.Perm (t.names.map name) := by
  have hmapped : (t.names.map name).Nodup := t.names_nodup.map_on fun a ha b hb => hname ha hb
  exact (List.perm_ext_iff_of_nodup u.names_nodup hmapped).2 fun key =>
    (h key).trans List.mem_map.symm

/-- What stands under a new name stood under the old one. -/
theorem get?_rename_eq_some_iff (hname : Set.InjOn name {key | key ∈ t.names}) :
    (t.rename name).get? key = some value ↔ ∃ old, name old = key ∧ t.get? old = some value := by
  have hnodup : ((t.entries.map (fun entry => (name entry.1, entry.2))).map (·.1)).Nodup := by
    have hmapped := t.names_nodup.map_on fun a ha b hb => hname ha hb
    rw [names, List.map_map] at hmapped
    rw [List.map_map]
    exact hmapped
  rw [rename, get?_ofList_eq_some_iff hnodup]
  simp only [List.mem_map, Prod.mk.injEq, Prod.exists, get?_eq_some_iff]
  constructor
  · rintro ⟨old, held, hmem, hold, rfl⟩
    exact ⟨old, hold, hmem⟩
  · rintro ⟨old, hold, hmem⟩
    exact ⟨old, value, hmem, hold, rfl⟩

end Table

/-! ## Errors, results and edges -/

section Rename

variable (f : NodeId → NodeId) (k : EdgeId → EdgeId)

/-- An error with the nodes that it mentions renamed. -/
def ShapeError.rename : ShapeError → ShapeError
  | .upstreamError origin => .upstreamError (f origin)
  | .selfConnection node => .selfConnection (f node)
  | .unknownNode node => .unknownNode (f node)
  | error => error

/-- A failure with the nodes that it mentions renamed. -/
def Failure.rename (failure : Failure) : Failure :=
  { failure with error := failure.error.rename f }

/-- A blockage with the nodes and edges that it mentions renamed. -/
def Blockage.rename (blockage : Blockage) : Blockage :=
  ⟨blockage.error.rename f, blockage.handle, blockage.edges.map k⟩

/-- A result with the nodes and edges that it mentions renamed. -/
def Result.rename : Result → Result
  | .resolved shape => .resolved shape
  | .blocked blockage => .blocked (blockage.rename f k)

/-- A reason to neglect an edge with the node that it mentions renamed. -/
def Neglect.rename : Neglect → Neglect
  | .missingNode id => .missingNode (f id)
  | .unknownOutput id block => .unknownOutput (f id) block
  | .unknownInput id block => .unknownInput (f id) block
  | .repeated => .repeated

/-- An edge of another id between renamed nodes. -/
def Edge.rename (e : Edge) : Edge :=
  { e with id := k e.id, source := f e.source, target := f e.target }

/-- The same verdict, in the words of an error with the nodes that it mentions renamed. -/
inductive Verdict.Renamed : Verdict → Verdict → Prop
  | ok (shape : Shape) : Renamed (.ok shape) (.ok shape)
  | invalid (error : ShapeError) :
      Renamed (.invalid error.code error.message) (.invalid error.code (error.rename f).message)
  | inactive : Renamed .inactive .inactive
  | ignored (code : Code) : Renamed (.ignored code) (.ignored code)

/-- The same diagnostic of a renamed node and a renamed edge, whatever its words. -/
structure Diagnostic.Renamed (d d' : Diagnostic) : Prop where
  level : d'.level = d.level
  code : d'.code = d.code
  hint : d'.hint = d.hint
  node : d'.node = d.node.map f
  edge : d'.edge = d.edge.map k

end Rename

section Rename

variable {f : NodeId → NodeId} {k : EdgeId → EdgeId}

@[simp] theorem Edge.id_rename (e : Edge) : (e.rename f k).id = k e.id := rfl

@[simp] theorem Edge.source_rename (e : Edge) : (e.rename f k).source = f e.source := rfl

@[simp] theorem Edge.target_rename (e : Edge) : (e.rename f k).target = f e.target := rfl

@[simp] theorem Edge.targetHandle_rename (e : Edge) :
    (e.rename f k).targetHandle = e.targetHandle := rfl

/-- The code tells the kind of an error, and no name. -/
@[simp] theorem ShapeError.code_rename (error : ShapeError) :
    (error.rename f).code = error.code := by
  cases error <;> rfl

@[simp] theorem Neglect.code_rename (neglect : Neglect) :
    (neglect.rename f).code = neglect.code := by
  cases neglect <;> rfl

@[simp] theorem Result.shape?_rename (result : Result) :
    (result.rename f k).shape? = result.shape? := by
  cases result <;> rfl

theorem Result.blockage?_rename (result : Result) :
    (result.rename f k).blockage? = result.blockage?.map (Blockage.rename f k) := by
  cases result <;> rfl

theorem Blockage.origin?_rename (blockage : Blockage) :
    (blockage.rename f k).origin? = blockage.origin?.map f := by
  obtain ⟨error, handle, edges⟩ := blockage
  cases error <;> rfl

theorem Neglect.warning_renamed (e : Edge) (neglect : Neglect) :
    (neglect.warning e).Renamed f k ((neglect.rename f).warning (e.rename f k)) := by
  cases neglect <;> exact ⟨rfl, rfl, rfl, rfl, rfl⟩

/-- **A rule speaks of no node.** -/
theorem Rule.Fault.error_rename {inputs : Inputs} {failure : Failure} (h : Fault inputs failure) :
    failure.error.rename f = failure.error := by
  cases h with
  | setting h =>
    obtain ⟨key, reason, rfl⟩ := h
    rfl
  | shape _ h => cases h <;> rfl
  | dataset | missing | sum | joint => rfl

/-! ## Evaluating a renamed node -/

variable {results renamed : Table Result} {incoming : List Edge}

/-- A renamed edge carries the shape that it carried before. -/
theorem carried?_rename {e : Edge}
    (h : renamed.get? (f e.source) = (results.get? e.source).map (Result.rename f k)) :
    carried? renamed (e.rename f k) = carried? results e := by
  rw [carried?, Edge.source_rename, h, carried?]
  cases results.get? e.source <;> simp

/-- Handles keep their names. -/
theorem checkHandles_rename (handles : List InputHandle) :
    checkHandles (incoming.map (Edge.rename f k)) handles = checkHandles incoming handles := by
  have hcount : ∀ name : String, (incoming.map (Edge.rename f k)).countP (·.targetHandle == name) =
      incoming.countP (·.targetHandle == name) := fun _ => List.countP_map
  induction handles with
  | nil => rfl
  | cons handle rest ih => simp only [checkHandles, hcount, ih]

section Sources

variable (h : ∀ e ∈ incoming,
  renamed.get? (f e.source) = (results.get? e.source).map (Result.rename f k))
include h

/-- The rule of a renamed node is given the same shapes at the same handles. -/
theorem arrivals_rename :
    arrivals renamed (incoming.map (Edge.rename f k)) = arrivals results incoming := by
  unfold arrivals
  rw [List.filterMap_map]
  refine congrArg Inputs.mk (List.filterMap_congr fun e he => ?_)
  rw [Function.comp_apply, carried?_rename (h e he), Edge.targetHandle_rename]

theorem firstBare?_rename :
    firstBare? renamed (incoming.map (Edge.rename f k)) =
      (firstBare? results incoming).map (Edge.rename f k) :=
  find?_map_congr fun e he => by rw [carried?_rename (h e he)]

theorem inherited_rename {e : Edge} (he : e ∈ incoming) :
    inherited renamed (e.rename f k) = (inherited results e).rename f := by
  have horigin : ((renamed.get? (f e.source)).bind Result.blockage?).bind Blockage.origin? =
      (((results.get? e.source).bind Result.blockage?).bind Blockage.origin?).map f := by
    rw [h e he]
    rcases results.get? e.source with _ | _ | blockage
    · rfl
    · rfl
    · exact blockage.origin?_rename
  simp only [inherited, Edge.source_rename, Edge.targetHandle_rename, horigin, Option.getD_map]
  rfl

/-- The edges to blame are the same. -/
theorem blamedEdges_rename (failure : Failure) :
    blamedEdges (failure.rename f) (incoming.map (Edge.rename f k)) renamed =
      (blamedEdges failure incoming results).map k := by
  obtain ⟨error, _ | handle, position⟩ := failure
  · rfl
  have hentering : (incoming.map (Edge.rename f k)).filter (·.targetHandle == handle) =
      (incoming.filter (·.targetHandle == handle)).map (Edge.rename f k) := List.filter_map
  have hbare : ((incoming.filter (·.targetHandle == handle)).map (Edge.rename f k)).filter
        (fun e => ((renamed.get? e.source).bind Result.shape?).isNone) =
      ((incoming.filter (·.targetHandle == handle)).filter
        (fun e => ((results.get? e.source).bind Result.shape?).isNone)).map (Edge.rename f k) := by
    rw [List.filter_map]
    refine congrArg _ (List.filter_congr fun e he => ?_)
    exact congrArg Option.isNone (carried?_rename (h e (List.mem_of_mem_filter he)))
  have hids : ∀ edges : List Edge,
      (edges.map (Edge.rename f k)).map (·.id) = (edges.map (·.id)).map k := by
    intro edges
    simp
  simp only [blamedEdges, Failure.rename, hentering]
  cases error with
  | upstreamError origin => simp only [ShapeError.rename, hbare, hids]
  | _ =>
    cases position with
    | none => simp only [ShapeError.rename, hids]
    | some i => simp only [ShapeError.rename, List.getElem?_map, Option.toList_map, hids]

/-- A renamed node fails for the same reason. -/
theorem Node.Fails.rename {node : Node} {failure : Failure}
    (hfails : node.Fails incoming results failure) :
    node.Fails (incoming.map (Edge.rename f k)) renamed (failure.rename f) := by
  cases hfails with
  | settings hschema =>
    obtain ⟨key, reason, rfl⟩ := Param.checkSchema_error hschema
    exact .settings hschema
  | handles hschema hhandles =>
    have hsame : failure.rename f = failure := by
      obtain ⟨handle, -, ⟨-, rfl⟩ | ⟨-, -, rfl⟩⟩ := checkHandles_eq_error hhandles
      · rfl
      · rfl
    rw [hsame]
    exact .handles hschema (by rw [checkHandles_rename, hhandles])
  | upstream hschema hhandles hbare =>
    rw [← inherited_rename h (List.mem_of_find?_eq_some hbare)]
    refine .upstream hschema (by rw [checkHandles_rename, hhandles]) ?_
    rw [firstBare?_rename h, hbare, Option.map_some]
  | rule hschema hhandles hbare hrule =>
    have hsame : failure.rename f = failure := by
      unfold Failure.rename
      rw [(Block.rule_fault _ _ _ _ hrule).error_rename]
    rw [hsame]
    refine .rule hschema (by rw [checkHandles_rename, hhandles]) ?_ ?_
    · rw [firstBare?_rename h, hbare, Option.map_none]
    · rw [arrivals_rename h, hrule]

/-- **The result of a renamed node is its result renamed.** -/
theorem Node.evaluate_rename (node : Node) :
    node.evaluate (incoming.map (Edge.rename f k)) renamed =
      (node.evaluate incoming results).rename f k := by
  cases hshape : node.outputShape incoming results with
  | ok shape =>
    obtain ⟨hschema, hhandles, hcarried, hrule⟩ := outputShape_eq_ok_iff.1 hshape
    have hshape' : node.outputShape (incoming.map (Edge.rename f k)) renamed = .ok shape := by
      refine outputShape_eq_ok_iff.2 ⟨hschema, by rw [checkHandles_rename, hhandles], ?_, ?_⟩
      · rw [List.forall_mem_map]
        exact fun e he => by rw [carried?_rename (h e he), hcarried e he]
      · rw [arrivals_rename h, hrule]
    simp only [evaluate, hshape, hshape', Result.rename]
  | error failure =>
    have hfails := fails_of_outputShape hshape
    rw [evaluate_of_fails hfails, evaluate_of_fails (hfails.rename h), blamedEdges_rename h]
    rfl

end Sources

end Rename

end ShapeFlow
