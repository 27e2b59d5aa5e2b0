import ShapeFlow.Proofs.Equations
import ShapeFlow.Proofs.Reading

/-!
# Defaults and further parameters

A parameter that is absent counts as its default, and one that the schema does not declare counts
for nothing.

* `Param.checkSchema_congr`: parameters that stand for the same values pass the schema alike, since
  every default fits its entry.
* `Block.complete`, `Block.strip`: parameters with all defaults written out, and without those that
  are not declared.
* `Graph.parameters_count_by_value`: **neither makes a difference** to any shape, failure, verdict
  or warning.
-/

namespace ShapeFlow

/-! ## Tables -/

namespace Table

variable {α β : Type}

/-- The entries whose names meet a condition. -/
def restrict (p : String → Bool) (t : Table α) : Table α :=
  ⟨t.entries.filter (p ·.1), t.ascending.filter _⟩

theorem get?_restrict (p : String → Bool) (t : Table α) (key : String) :
    (t.restrict p).get? key = if p key then t.get? key else none := by
  refine Option.ext fun value => ?_
  rw [get?_eq_some_iff, restrict, List.mem_filter, ← get?_eq_some_iff]
  by_cases hkey : p key = true <;> simp [hkey]

theorem get?_eq_find? (t : Table α) (key : String) :
    t.get? key = (t.entries.find? (·.1 == key)).map (·.2) := by
  rw [get?]
  induction t.entries with
  | nil => rfl
  | cons first rest ih =>
    obtain ⟨name, held⟩ := first
    rw [lookup_cons_eq, List.find?_cons, ih]
    by_cases hkey : key = name
    · simp [hkey]
    · have hname : (name == key) = false := beq_false_of_ne (Ne.symm hkey)
      rw [if_neg hkey, hname]

end Table

/-! ## Values that parameters stand for -/

namespace Param

variable {schema : List Spec} {params others : Params}

/-- The value that a parameter stands for: the stored one, or else its default. -/
def Spec.standing (spec : Spec) (params : Params) : Value :=
  (params.get? spec.key).getD spec.default

/-- An absent parameter is not checked, which amounts to a check of its default. -/
theorem checkSchema_cons {spec : Spec} {rest : List Spec}
    (hdefault : spec.kind.objection? spec.default = none) :
    checkSchema (spec :: rest) params =
      spec.check (spec.standing params) >>= fun _ => checkSchema rest params := by
  rw [checkSchema, Spec.standing]
  cases params.get? spec.key with
  | none =>
    rw [Option.getD_none, Spec.check_eq_ok_iff.2 hdefault]
    rfl
  | some value => rfl

/-- **Parameters that stand for the same values** pass the schema alike. -/
theorem checkSchema_congr (hdefaults : ∀ spec ∈ schema, spec.kind.objection? spec.default = none)
    (h : ∀ spec ∈ schema, spec.standing params = spec.standing others) :
    checkSchema schema params = checkSchema schema others := by
  induction schema with
  | nil => rfl
  | cons spec rest ih =>
    obtain ⟨hdefault, hdefaults⟩ := List.forall_mem_cons.1 hdefaults
    obtain ⟨hspec, hrest⟩ := List.forall_mem_cons.1 h
    rw [checkSchema_cons hdefault, checkSchema_cons hdefault, hspec, ih hdefaults hrest]

end Param

/-- Readers find the same where parameters stand for the same values. -/
theorem Settings.value_congr {schema : List Param.Spec} {params others : Params}
    (h : ∀ spec ∈ schema, spec.standing params = spec.standing others) (key : String) :
    (Settings.mk schema params).value key = (Settings.mk schema others).value key := by
  unfold Settings.value
  cases hspec : schema.find? (·.key == key) with
  | none => rfl
  | some spec =>
    have hkey : spec.key = key := by simpa using List.find?_some hspec
    have hstanding := h spec (List.mem_of_find?_eq_some hspec)
    rw [Param.Spec.standing, Param.Spec.standing, hkey] at hstanding
    simp only [hstanding]

/-- A reader sees nothing but the value under its key. -/
theorem Reading.same_of_value {settings others : Settings} {reading : Reading}
    (h : settings.value reading.key = others.value reading.key) : reading.Same settings others := by
  cases reading <;>
    simp only [Reading.key] at h <;>
    simp only [Same, Settings.word, Settings.constraint, Settings.signed, Settings.flag,
      Settings.text, Settings.pair, h]

namespace Block

variable {block : Block} {params others : Params}

/-- All declared parameters stand for the same values. -/
def Alike (block : Block) (params others : Params) : Prop :=
  ∀ spec ∈ block.schema, spec.standing params = spec.standing others

namespace Alike

variable (h : block.Alike params others)
include h

theorem checkSchema_eq :
    Param.checkSchema block.schema params = Param.checkSchema block.schema others :=
  Param.checkSchema_congr block.defaults_fit h

theorem rule_eq (inputs : Inputs) : block.rule params inputs = block.rule others inputs :=
  rule_congr_readings (fun reading _ => Reading.same_of_value (Settings.value_congr h reading.key))
    inputs

theorem outputShape_eq (inputs : Inputs) :
    block.outputShape params inputs = block.outputShape others inputs := by
  rw [outputShape, outputShape, h.checkSchema_eq, h.rule_eq]

theorem checkCandidate_eq (inputs : Inputs) :
    block.checkCandidate params inputs = block.checkCandidate others inputs := by
  rw [checkCandidate, checkCandidate, h.checkSchema_eq, h.rule_eq]

/-- **A node is evaluated by the values of its parameters.** -/
theorem evaluate_eq (incoming : List Edge) (results : Table Result) :
    (Node.mk block params).evaluate incoming results =
      (Node.mk block others).evaluate incoming results := by
  have hshape : (Node.mk block params).outputShape incoming results =
      (Node.mk block others).outputShape incoming results := by
    simp only [Node.outputShape, h.checkSchema_eq, h.outputShape_eq]
  rw [Node.evaluate, Node.evaluate, hshape]

end Alike

/-! ## Defaults written out, and further parameters left out -/

/-- The parameters with every absent declared one set to its default. -/
def complete (block : Block) (params : Params) : Params :=
  block.defaults.entries.foldl (fun params entry => params.insertNew entry.1 entry.2) params

/-- Whether the schema of a block knows a parameter. -/
def declares (block : Block) (key : String) : Bool := block.schema.any (·.key == key)

/-- The declared parameters only. -/
def strip (block : Block) (params : Params) : Params := params.restrict block.declares

theorem schema_keys_nodup (block : Block) : (block.schema.map (·.key)).Nodup := by
  cases block <;> decide

/-- The defaults of a block are those of its schema. -/
theorem get?_defaults_eq_some_iff {key : String} {value : Param.Value} :
    block.defaults.get? key = some value ↔
      ∃ spec ∈ block.schema, spec.key = key ∧ spec.default = value := by
  have hkeys : ((block.schema.map (fun spec => (spec.key, spec.default))).map (·.1)).Nodup := by
    rw [List.map_map]
    exact block.schema_keys_nodup
  rw [defaults, Table.get?_ofList_eq_some_iff hkeys, List.mem_map]
  simp only [Prod.mk.injEq]

theorem get?_defaults {spec : Param.Spec} (h : spec ∈ block.schema) :
    block.defaults.get? spec.key = some spec.default :=
  get?_defaults_eq_some_iff.2 ⟨spec, h, rfl, rfl⟩

theorem declares_iff {key : String} :
    block.declares key = true ↔ ∃ spec ∈ block.schema, spec.key = key := by
  rw [declares, List.any_eq_true]
  simp only [beq_iff_eq]

/-- A stored value stands before the default of its name. -/
theorem get?_complete (key : String) :
    (block.complete params).get? key = (params.get? key).or (block.defaults.get? key) := by
  rw [Table.get?_eq_find? block.defaults]
  exact Table.get?_foldl_insertNew (fun entry => entry) block.defaults.entries params key

theorem get?_strip (key : String) :
    (block.strip params).get? key = if block.declares key then params.get? key else none :=
  Table.get?_restrict ..

/-- Writing defaults out changes no value that parameters stand for. -/
theorem complete_alike (block : Block) (params : Params) :
    block.Alike (block.complete params) params := by
  intro spec hspec
  rw [Param.Spec.standing, get?_complete, get?_defaults hspec, Param.Spec.standing]
  cases params.get? spec.key <;> rfl

/-- Parameters outside of the schema stand for nothing that a block reads. -/
theorem strip_alike (block : Block) (params : Params) :
    block.Alike (block.strip params) params := by
  intro spec hspec
  have hdeclared : block.declares spec.key = true := declares_iff.2 ⟨spec, hspec, rfl⟩
  rw [Param.Spec.standing, get?_strip, if_pos hdeclared, Param.Spec.standing]

end Block

/-! ## Graphs -/

namespace Graph

variable {g : Graph} {f : NodeId → Node → Params}

/-- The graph with other parameters at its nodes. -/
def refit (g : Graph) (f : NodeId → Node → Params) : Graph :=
  { g with nodes := g.nodes.mapEntries (fun id node => { node with params := f id node }) }

theorem node?_refit (id : NodeId) :
    (g.refit f).node? id = (g.node? id).map (fun node => { node with params := f id node }) :=
  Table.get?_mapEntries ..

theorem sameBlocks_refit : g.SameBlocks (g.refit f) := by
  intro id
  rw [node?_refit, Option.map_map]
  rfl

theorem classes_refit : (g.refit f).classes = g.classes := classesFrom_congr sameBlocks_refit _

theorem activeEdges_refit : (g.refit f).activeEdges = g.activeEdges :=
  activeFrom_congr sameBlocks_refit _

theorem tensorIds_refit :
    (g.refit f).tensorNodes.map (·.1) = g.tensorNodes.map (·.1) := by
  rw [tensorNodes, refit, Table.mapEntries, List.filter_map, List.map_map]
  rfl

/-- **A graph is computed by the values of its parameters.** -/
theorem recompute_refit
    (h : ∀ id node, g.node? id = some node → node.block.Alike (f id node) node.params) :
    (g.refit f).recompute = g.recompute := by
  have hstep : ∀ active results id,
      (g.refit f).evaluateInto active results id = g.evaluateInto active results id := by
    intro active results id
    rw [evaluateInto, evaluateInto, node?_refit]
    cases hnode : g.node? id with
    | none => rfl
    | some node => exact congrArg (results.insert id) ((h id node hnode).evaluate_eq _ _)
  have horder : (g.refit f).order = g.order := by
    rw [order, order, tensorIds_refit, activeEdges_refit]
  have hresults : (g.refit f).results = g.results := by
    simp only [results, horder, activeEdges_refit]
    exact congrArg (List.foldl · _ _) (funext₂ (hstep _))
  have hwarnings : (g.refit f).warnings = g.warnings := by
    rw [warnings, classes_refit, warnings]
    rfl
  rw [recompute, recompute, hresults, verdicts, classes_refit, hwarnings, verdicts]

/-- **Defaults are transparent, and further parameters inert.** The defaults of a block are those of
its schema, which declares its keys. Parameters with all defaults written out, and parameters
without those that the schema does not declare, lead to the same shape or failure of a block and of
a candidate, whatever else they hold. A graph with such parameters at any of its nodes has the same
results, verdicts and warnings. -/
theorem parameters_count_by_value :
    (∀ (block : Block) (key : String),
      (∀ value, block.defaults.get? key = some value ↔
        ∃ spec ∈ block.schema, spec.key = key ∧ spec.default = value) ∧
      (block.declares key = true ↔ ∃ spec ∈ block.schema, spec.key = key)) ∧
    (∀ (block : Block) (params : Params) (key : String),
      (block.complete params).get? key = (params.get? key).or (block.defaults.get? key) ∧
      (block.strip params).get? key = if block.declares key then params.get? key else none) ∧
    (∀ (block : Block) (params : Params) (inputs : Inputs),
      block.outputShape (block.complete params) inputs = block.outputShape params inputs ∧
      block.outputShape (block.strip params) inputs = block.outputShape params inputs ∧
      block.checkCandidate (block.complete params) inputs = block.checkCandidate params inputs ∧
      block.checkCandidate (block.strip params) inputs = block.checkCandidate params inputs) ∧
    ∀ (g : Graph) (f : NodeId → Node → Params),
      (∀ id node, g.node? id = some node → f id node = node.block.complete node.params ∨
        f id node = node.block.strip node.params ∨ f id node = node.params) →
      (g.refit f).recompute = g.recompute := by
  refine ⟨fun _ _ => ⟨fun _ => Block.get?_defaults_eq_some_iff, Block.declares_iff⟩,
    fun block params key => ⟨Block.get?_complete key, Block.get?_strip key⟩,
    fun block params inputs => ?_, fun g f hf => recompute_refit fun id node hnode => ?_⟩
  · have hcomplete := block.complete_alike params
    have hstrip := block.strip_alike params
    exact ⟨hcomplete.outputShape_eq inputs, hstrip.outputShape_eq inputs,
      hcomplete.checkCandidate_eq inputs, hstrip.checkCandidate_eq inputs⟩
  · rcases hf id node hnode with heq | heq | heq <;> rw [heq]
    · exact node.block.complete_alike node.params
    · exact node.block.strip_alike node.params
    · exact fun _ _ => rfl

/-- An image, flattened for a layer of which a size and a color are stored. -/
def tinted : Graph :=
  ⟨Table.ofList [("flat", ⟨.flatten, Table.empty⟩), ("image", ⟨.input, Table.empty⟩),
      ("layer", ⟨.linear, Table.ofList [("color", .text "red"), ("in_features", .number 784)]⟩)],
    [⟨"first", "image", "out", "flat", "in"⟩, ⟨"second", "flat", "out", "layer", "in"⟩], []⟩

/-- The layer has its 128 features with all defaults written out, and without its color. -/
theorem parameters_count_by_value_tinted :
    (tinted.refit (fun _ node => node.block.complete node.params)).recompute.shape? "layer" =
      some ⟨[.known 128]⟩ ∧
    (tinted.refit (fun _ node => node.block.strip node.params)).recompute.shape? "layer" =
      some ⟨[.known 128]⟩ := by
  obtain ⟨-, -, -, hgraph⟩ := parameters_count_by_value
  rw [hgraph tinted _ fun _ _ _ => Or.inl rfl, hgraph tinted _ fun _ _ _ => Or.inr (Or.inl rfl)]
  exact ⟨by decide +kernel, by decide +kernel⟩

end Graph

end ShapeFlow
