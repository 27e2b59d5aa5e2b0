import ShapeFlow.Flow.Evaluate
import ShapeFlow.Proofs.Outcome
import Mathlib.Data.List.Basic

/-!
# What a node is evaluated from

* `carried?`, `arrivals`: the shape that an edge carries, and the inputs made of the edges into a
  node. `collectInputs` finds these inputs, or the first edge without a shape.
* `Node.outputShape_eq_ok_iff`: when a node has an output shape, and which.
* `Node.Fails`: the causes for which it has none, in the order in which they are looked for.
* `mem_blamedEdges_iff_attributed`: the ids that are blamed are those of the edges to which a failure
  is attributed.
* `Node.evaluate_congr`: **a node is evaluated from the results of its sources alone.**
-/

namespace ShapeFlow

variable {results others : Table Result} {incoming edges : List Edge} {e : Edge}

/-- The shape that an edge carries. -/
def carried? (results : Table Result) (e : Edge) : Option Shape :=
  (results.get? e.source).bind Result.shape?

/-- The shapes that edges carry, at the handles that they enter by. -/
def arrivals (results : Table Result) (edges : List Edge) : Inputs :=
  ⟨edges.filterMap (fun e => (carried? results e).map (e.targetHandle, ·))⟩

/-- The first edge that carries no shape. -/
def firstBare? (results : Table Result) (edges : List Edge) : Option Edge :=
  edges.find? (fun e => (carried? results e).isNone)

theorem firstBare?_eq_none_iff :
    firstBare? results edges = none ↔ ∀ e ∈ edges, (carried? results e).isSome := by
  simp [firstBare?, ← Option.isSome_iff_ne_none]

theorem arrivals_append_singleton {shape : Shape} (h : carried? results e = some shape) :
    arrivals results (edges ++ [e]) = (arrivals results edges).push e.targetHandle shape := by
  simp [arrivals, Inputs.push, h]

/-- The inputs of a node are those that its edges carry, unless one carries none. -/
theorem collectInputs_eq (inputs : Inputs) :
    collectInputs results inputs edges =
      match firstBare? results edges with
      | some e => .error (inherited results e)
      | none => .ok ⟨inputs.arrivals ++ (arrivals results edges).arrivals⟩ := by
  induction edges generalizing inputs with
  | nil => simp [collectInputs, firstBare?, arrivals]
  | cons e rest ih =>
    unfold collectInputs
    rw [← carried?]
    cases h : carried? results e with
    | none => simp [firstBare?, h]
    | some shape => simp [firstBare?, arrivals, h, ih, Inputs.push]

theorem collectInputs_none :
    collectInputs results Inputs.none edges =
      match firstBare? results edges with
      | some e => .error (inherited results e)
      | none => .ok (arrivals results edges) := by
  rw [collectInputs_eq]
  simp [Inputs.none]

/-! ## Handles -/

theorem checkHandles_eq_ok_iff {handles : List InputHandle} :
    checkHandles incoming handles = .ok () ↔ ∀ h ∈ handles,
      0 < incoming.countP (·.targetHandle == h.name) ∧
        (incoming.countP (·.targetHandle == h.name) ≤ 1 ∨ h.merges = true) := by
  induction handles with
  | nil => simp [checkHandles]
  | cons h rest ih =>
    simp only [checkHandles, List.forall_mem_cons, ← ih]
    split
    · next h0 => simp [h0]
    · split
      · next h0 h1 =>
        simp only [Bool.not_eq_true', reduceCtorEq, false_iff, not_and] at h1 ⊢
        rintro ⟨-, hle | hm⟩
        · omega
        · simp [hm] at h1
      · next h0 h1 =>
        refine ⟨fun hrest => ⟨⟨by omega, ?_⟩, hrest⟩, fun hall => hall.2⟩
        cases hm : h.merges
        · refine Or.inl (Nat.le_of_not_lt fun hlt => h1 ⟨hlt, by simp [hm]⟩)
        · exact Or.inr rfl

/-- The two objections to the edges at a handle: there is none, or there are several at an input
that takes one. -/
theorem checkHandles_eq_error {handles : List InputHandle} {f : Failure}
    (h : checkHandles incoming handles = .error f) : ∃ handle ∈ handles,
      incoming.countP (·.targetHandle == handle.name) = 0 ∧ f = Rule.missing handle.name ∨
      1 < incoming.countP (·.targetHandle == handle.name) ∧ handle.merges = false ∧
        f = .atHandle handle.name (.handleConflict handle.name
          (incoming.countP (·.targetHandle == handle.name))) := by
  induction handles with
  | nil => simp [checkHandles] at h
  | cons handle rest ih =>
    simp only [checkHandles] at h
    split at h
    · next h0 => exact ⟨handle, by simp, Or.inl ⟨h0, (Except.error.inj h).symm⟩⟩
    · split at h
      · next h1 =>
        exact ⟨handle, by simp, Or.inr ⟨h1.1, by simpa using h1.2, (Except.error.inj h).symm⟩⟩
      · obtain ⟨handle', hm, hcause⟩ := ih h
        exact ⟨handle', List.mem_cons_of_mem _ hm, hcause⟩

theorem requireConnected_eq_ok_iff {inputs : Inputs} {handles : List InputHandle} :
    Block.requireConnected inputs handles = .ok () ↔
      ∀ h ∈ handles, inputs.isConnected h.name = true := by
  induction handles with
  | nil => simp [Block.requireConnected]
  | cons h rest ih =>
    unfold Block.requireConnected
    split <;> simp_all

/-- The shapes at a handle are those carried by the edges into it. -/
theorem all_arrivals (handle : String) :
    (arrivals results edges).all handle =
      (edges.filter (·.targetHandle == handle)).filterMap (carried? results) := by
  unfold Inputs.all arrivals
  induction edges with
  | nil => rfl
  | cons e rest ih =>
    cases hc : carried? results e <;> by_cases ht : e.targetHandle = handle <;>
      simp_all

theorem all_push_self (inputs : Inputs) (handle : String) (shape : Shape) :
    (inputs.push handle shape).all handle = inputs.all handle ++ [shape] := by
  simp [Inputs.push, Inputs.all]

theorem isConnected_arrivals {handle : String} (hall : ∀ e ∈ edges, (carried? results e).isSome)
    (hpos : 0 < edges.countP (·.targetHandle == handle)) :
    (arrivals results edges).isConnected handle = true := by
  obtain ⟨e, he, ht⟩ := List.countP_pos_iff.1 hpos
  obtain ⟨shape, hshape⟩ := Option.isSome_iff_exists.1 (hall e he)
  have hmem : shape ∈ (arrivals results edges).all handle := by
    rw [all_arrivals, List.mem_filterMap]
    exact ⟨e, List.mem_filter.2 ⟨he, ht⟩, hshape⟩
  unfold Inputs.isConnected
  cases hlist : (arrivals results edges).all handle with
  | nil => simp [hlist] at hmem
  | cons => rfl

/-! ## The output shape -/

namespace Node

variable {node : Node} {shape : Shape} {f : Failure}

/-- Why a node has no output shape: the first check that fails. -/
inductive Fails (node : Node) (incoming : List Edge) (results : Table Result) : Failure → Prop
  | settings {error : ShapeError}
      (hschema : Param.checkSchema node.block.schema node.params = .error error) :
      Fails node incoming results (.ofError error)
  | handles {f : Failure}
      (hschema : Param.checkSchema node.block.schema node.params = .ok ())
      (hhandles : checkHandles incoming node.block.inputs = .error f) :
      Fails node incoming results f
  | upstream {e : Edge}
      (hschema : Param.checkSchema node.block.schema node.params = .ok ())
      (hhandles : checkHandles incoming node.block.inputs = .ok ())
      (hbare : firstBare? results incoming = some e) :
      Fails node incoming results (inherited results e)
  | rule {f : Failure}
      (hschema : Param.checkSchema node.block.schema node.params = .ok ())
      (hhandles : checkHandles incoming node.block.inputs = .ok ())
      (hbare : firstBare? results incoming = none)
      (hrule : node.block.rule node.params (arrivals results incoming) = .error f) :
      Fails node incoming results f

/-- Once the local checks pass and every edge carries a shape, the rule decides. -/
theorem outputShape_eq_rule
    (hschema : Param.checkSchema node.block.schema node.params = .ok ())
    (hhandles : checkHandles incoming node.block.inputs = .ok ())
    (hbare : firstBare? results incoming = none) :
    node.outputShape incoming results =
      node.block.rule node.params (arrivals results incoming) := by
  have hconnected : Block.requireConnected (arrivals results incoming) node.block.inputs = .ok () :=
    requireConnected_eq_ok_iff.2 fun h hm =>
      isConnected_arrivals (firstBare?_eq_none_iff.1 hbare) (checkHandles_eq_ok_iff.1 hhandles h hm).1
  simp only [outputShape, Block.outputShape, hschema, hhandles, collectInputs_none, hbare,
    hconnected, Rule.configured_ok, ok_bind]

theorem outputShape_eq_ok_iff :
    node.outputShape incoming results = .ok shape ↔
      Param.checkSchema node.block.schema node.params = .ok () ∧
      checkHandles incoming node.block.inputs = .ok () ∧
      (∀ e ∈ incoming, (carried? results e).isSome) ∧
      node.block.rule node.params (arrivals results incoming) = .ok shape := by
  constructor
  · intro h
    cases hschema : Param.checkSchema node.block.schema node.params with
    | error error =>
      simp only [outputShape, hschema] at h
      cases h
    | ok =>
      cases hhandles : checkHandles incoming node.block.inputs with
      | error f =>
        simp only [outputShape, hschema, hhandles] at h
        cases h
      | ok =>
        cases hbare : firstBare? results incoming with
        | some e =>
          simp only [outputShape, hschema, hhandles, collectInputs_none, hbare] at h
          cases h
        | none =>
          refine ⟨rfl, rfl, firstBare?_eq_none_iff.1 hbare, ?_⟩
          rw [← h, outputShape_eq_rule hschema hhandles hbare]
  · rintro ⟨hschema, hhandles, hall, hrule⟩
    rw [outputShape_eq_rule hschema hhandles (firstBare?_eq_none_iff.2 hall), hrule]

theorem fails_of_outputShape (h : node.outputShape incoming results = .error f) :
    node.Fails incoming results f := by
  cases hschema : Param.checkSchema node.block.schema node.params with
  | error error =>
    simp only [outputShape, hschema] at h
    cases h
    exact .settings hschema
  | ok =>
    cases hhandles : checkHandles incoming node.block.inputs with
    | error f =>
      simp only [outputShape, hschema, hhandles] at h
      cases h
      exact .handles hschema hhandles
    | ok =>
      cases hbare : firstBare? results incoming with
      | some e =>
        simp only [outputShape, hschema, hhandles, collectInputs_none, hbare] at h
        cases h
        exact .upstream hschema hhandles hbare
      | none =>
        rw [outputShape_eq_rule hschema hhandles hbare] at h
        exact .rule hschema hhandles hbare h

theorem outputShape_of_fails (h : node.Fails incoming results f) :
    node.outputShape incoming results = .error f := by
  cases h with
  | settings hschema => simp only [outputShape, hschema, Rule.configured_error, error_bind]
  | handles hschema hhandles =>
    simp only [outputShape, hschema, hhandles, Rule.configured_ok, ok_bind, error_bind]
  | upstream hschema hhandles hbare =>
    simp only [outputShape, hschema, hhandles, collectInputs_none, hbare, Rule.configured_ok, ok_bind,
      error_bind]
  | rule hschema hhandles hbare hrule => rw [outputShape_eq_rule hschema hhandles hbare, hrule]

/-- A node that fails is blocked by this failure. -/
theorem evaluate_of_fails (h : node.Fails incoming results f) :
    node.evaluate incoming results =
      .blocked ⟨f.error, f.handle, blamedEdges f incoming results⟩ := by
  simp only [evaluate, outputShape_of_fails h]

theorem evaluate_shape?_eq_some_iff :
    (node.evaluate incoming results).shape? = some shape ↔
      node.outputShape incoming results = .ok shape := by
  unfold evaluate
  cases node.outputShape incoming results <;> simp [Result.shape?]

theorem evaluate_blockage? {blockage : Blockage}
    (h : (node.evaluate incoming results).blockage? = some blockage) :
    ∃ f, node.Fails incoming results f ∧
      blockage = ⟨f.error, f.handle, blamedEdges f incoming results⟩ := by
  unfold evaluate at h
  cases hf : node.outputShape incoming results with
  | ok shape =>
    simp only [hf] at h
    cases h
  | error f =>
    simp only [hf, Result.blockage?, Option.some.injEq] at h
    exact ⟨f, fails_of_outputShape hf, h.symm⟩

end Node

/-! ## Attribution -/

variable {f : Failure}

/-- **A failure is attributed to an edge**: the edge enters by the handle of the failure; it carries
no shape if the failure is inherited; otherwise it is the one at the position of the failure, if the
failure has a position. -/
structure Attributed (f : Failure) (incoming : List Edge) (results : Table Result) (e : Edge) :
    Prop where
  enters : e ∈ incoming
  handle : f.handle = some e.targetHandle
  bare : ∀ origin, f.error = .upstreamError origin → carried? results e = none
  place : (∀ origin, f.error ≠ .upstreamError origin) → ∀ i, f.position = some i →
    (incoming.filter (·.targetHandle == e.targetHandle))[i]? = some e

/-- **The ids that are blamed** are those of the edges to which the failure is attributed. -/
theorem mem_blamedEdges_iff_attributed {id : EdgeId} :
    id ∈ blamedEdges f incoming results ↔ ∃ e, Attributed f incoming results e ∧ e.id = id := by
  unfold blamedEdges
  cases hhandle : f.handle with
  | none =>
    constructor
    · intro h
      cases h
    · rintro ⟨e, he, -⟩
      have hsome := he.handle
      rw [hhandle] at hsome
      cases hsome
  | some handle =>
    have hentering : ∀ e, e ∈ incoming.filter (·.targetHandle == handle) ↔
        e ∈ incoming ∧ e.targetHandle = handle := by
      intro e
      rw [List.mem_filter, beq_iff_eq]
    have hsame : ∀ e, Attributed f incoming results e → e.targetHandle = handle := by
      intro e he
      have hsome := he.handle
      rw [hhandle] at hsome
      exact (Option.some.inj hsome).symm
    dsimp only
    rw [List.mem_map]
    refine exists_congr fun e => and_congr_left fun _ => ?_
    split
    · next origin herror =>
      rw [List.mem_filter, hentering, ← carried?, Option.isNone_iff_eq_none]
      constructor
      · rintro ⟨⟨he, rfl⟩, hbare⟩
        exact ⟨he, hhandle, fun _ _ => hbare, fun hne => absurd herror (hne origin)⟩
      · intro he
        exact ⟨⟨he.enters, hsame e he⟩, he.bare origin herror⟩
    · next position hposition hne =>
      rw [Option.mem_toList]
      constructor
      · intro hat
        obtain ⟨he, rfl⟩ := (hentering e).1 (List.mem_of_getElem? hat)
        refine ⟨he, hhandle, fun origin herror => absurd herror (hne origin), fun _ i hi => ?_⟩
        rw [hposition, Option.some.injEq] at hi
        rwa [← hi]
      · intro he
        have hat := he.place hne position hposition
        rwa [hsame e he] at hat
    · next hposition hne =>
      rw [hentering]
      constructor
      · rintro ⟨he, rfl⟩
        refine ⟨he, hhandle, fun origin herror => absurd herror (hne origin), fun _ i hi => ?_⟩
        rw [hposition] at hi
        cases hi
      · intro he
        exact ⟨he.enters, hsame e he⟩

/-- What blame implies: the edge enters by the handle of the failure, and it carries no shape if the
failure is inherited. -/
theorem mem_blamedEdges {id : EdgeId} (h : id ∈ blamedEdges f incoming results) :
    ∃ e ∈ incoming, e.id = id ∧ f.handle = some e.targetHandle ∧
      ∀ origin, f.error = .upstreamError origin → carried? results e = none := by
  obtain ⟨e, he, hid⟩ := mem_blamedEdges_iff_attributed.1 h
  exact ⟨e, he.enters, hid, he.handle, he.bare⟩

/-! ## The results that matter -/

section Congr

variable (h : ∀ e ∈ incoming, results.get? e.source = others.get? e.source)
include h

theorem arrivals_congr : arrivals results incoming = arrivals others incoming :=
  congrArg Inputs.mk (List.filterMap_congr fun e he => by simp only [carried?, h e he])

theorem collectInputs_congr (inputs : Inputs) :
    collectInputs results inputs incoming = collectInputs others inputs incoming := by
  induction incoming generalizing inputs with
  | nil => rfl
  | cons e rest ih =>
    obtain ⟨he, hrest⟩ := List.forall_mem_cons.1 h
    simp only [collectInputs, inherited, he, ih hrest]

theorem blamedEdges_congr : blamedEdges f incoming results = blamedEdges f incoming others := by
  unfold blamedEdges
  cases f.handle with
  | none => rfl
  | some handle =>
    have hbare : (incoming.filter (·.targetHandle == handle)).filter
          (fun e => ((results.get? e.source).bind Result.shape?).isNone) =
        (incoming.filter (·.targetHandle == handle)).filter
          (fun e => ((others.get? e.source).bind Result.shape?).isNone) :=
      List.filter_congr fun e he => by rw [h e (List.mem_of_mem_filter he)]
    simp only [hbare]

/-- **A node is evaluated from the results of its sources alone.** -/
theorem Node.evaluate_congr (node : Node) :
    node.evaluate incoming results = node.evaluate incoming others := by
  have hshape : node.outputShape incoming results = node.outputShape incoming others := by
    simp only [outputShape, collectInputs_congr h]
  simp only [evaluate, hshape, blamedEdges_congr h]

end Congr

end ShapeFlow
