import ShapeFlow.Proofs.Agreement
import ShapeFlow.Proofs.Exact
import ShapeFlow.Proofs.Permutation

/-!
# Merges within merges

* `Nesting`: inputs that are merged in groups, and groups of groups.
* `Nesting.run_eq_ok_iff`: **where the brackets stand does not matter** for a merge that gives a
  group what its parts give.
* `Block.merges_have_closed_form`: sums and concatenations in closed form, with the failures that
  they report, for any order and any brackets of their inputs.
-/

namespace ShapeFlow

open List

/-- Inputs with brackets: a shape, or a merge of one or more parts. -/
inductive Nesting where
  | input (shape : Shape)
  | merge (first : Nesting) (rest : List Nesting)

namespace Nesting

mutual

/-- The inputs in their order, without the brackets. -/
def inputs : Nesting → List Shape
  | input shape => [shape]
  | merge first rest => (first.inputs :: inputsEach rest).flatten

/-- The inputs of every part. -/
def inputsEach : List Nesting → List (List Shape)
  | [] => []
  | part :: rest => part.inputs :: inputsEach rest

end

mutual

/-- Merges from the inside out. -/
def run (merge : List Shape → Outcome Shape) : Nesting → Outcome Shape
  | input shape => .ok shape
  | .merge first rest => do
    let shape ← first.run merge
    let shapes ← runEach merge rest
    merge (shape :: shapes)

/-- Merges every part. -/
def runEach (merge : List Shape → Outcome Shape) : List Nesting → Outcome (List Shape)
  | [] => .ok []
  | part :: rest => do
    let shape ← part.run merge
    let shapes ← runEach merge rest
    return shape :: shapes

end

/-- A merge and what it gives, of which brackets around its inputs change nothing. What it gives is
good if all its inputs are, and the other way round. -/
structure Associates (merge : List Shape → Outcome Shape) (gives : List Shape → Shape → Prop)
    (good : Shape → Prop) : Prop where
  single {x y : Shape} : gives [x] y ↔ x = y
  merged {shapes : List Shape} {y : Shape} :
    shapes ≠ [] → good y → (merge shapes = .ok y ↔ gives shapes y)
  flatten {groups : List (List Shape)} {y : Shape} : (∀ group ∈ groups, group ≠ []) →
    (gives groups.flatten y ↔ ∃ parts, Forall₂ gives groups parts ∧ gives parts y)
  good_of_gives {shapes : List Shape} {y : Shape} : gives shapes y → good y → ∀ s ∈ shapes, good s

variable {merge : List Shape → Outcome Shape} {gives : List Shape → Shape → Prop}
  {good : Shape → Prop}

/-- A nested merge succeeds when its parts do, and then the merge of what they give. -/
theorem run_merge_eq_ok_iff {first : Nesting} {rest : List Nesting} {y : Shape} :
    (Nesting.merge first rest).run merge = .ok y ↔ ∃ shape shapes, first.run merge = .ok shape ∧
      runEach merge rest = .ok shapes ∧ merge (shape :: shapes) = .ok y := by
  simp only [run, bind_eq_ok_iff]
  constructor
  · rintro ⟨shape, hfirst, shapes, hrest, hmerge⟩
    exact ⟨shape, shapes, hfirst, hrest, hmerge⟩
  · rintro ⟨shape, shapes, hfirst, hrest, hmerge⟩
    exact ⟨shape, hfirst, shapes, hrest, hmerge⟩

mutual

theorem inputs_ne_nil : ∀ nesting : Nesting, nesting.inputs ≠ []
  | input shape => by simp [inputs]
  | .merge first rest => by simp [inputs, inputs_ne_nil first]

theorem ne_nil_of_mem_inputsEach : ∀ (parts : List Nesting), ∀ group ∈ inputsEach parts, group ≠ []
  | [] => by simp [inputsEach]
  | part :: rest => by
    rw [inputsEach, List.forall_mem_cons]
    exact ⟨inputs_ne_nil part, ne_nil_of_mem_inputsEach rest⟩

end

mutual

/-- **Brackets do not matter**: merging from the inside out gives what all inputs give at once. -/
theorem run_eq_ok_iff (h : Associates merge gives good) : ∀ (nesting : Nesting) {y : Shape},
    good y → (nesting.run merge = .ok y ↔ gives nesting.inputs y)
  | input shape, y, _ => by
    rw [run, inputs, h.single, Except.ok.injEq]
  | .merge first rest, y, hy => by
    have hgroups : ∀ group ∈ first.inputs :: inputsEach rest, group ≠ [] :=
      List.forall_mem_cons.2 ⟨inputs_ne_nil first, ne_nil_of_mem_inputsEach rest⟩
    rw [inputs, h.flatten hgroups, run_merge_eq_ok_iff]
    constructor
    · rintro ⟨shape, shapes, hfirst, hrest, hmerge⟩
      have hgives := (h.merged (List.cons_ne_nil _ _) hy).1 hmerge
      obtain ⟨hgood, hgoods⟩ := List.forall_mem_cons.1 (h.good_of_gives hgives hy)
      exact ⟨shape :: shapes, .cons ((run_eq_ok_iff h first hgood).1 hfirst)
        ((runEach_eq_ok_iff h rest hgoods).1 hrest), hgives⟩
    · rintro ⟨parts, hparts, hgives⟩
      cases hparts with
      | @cons _ shape _ shapes hfirst hrest =>
        obtain ⟨hgood, hgoods⟩ := List.forall_mem_cons.1 (h.good_of_gives hgives hy)
        exact ⟨shape, shapes, (run_eq_ok_iff h first hgood).2 hfirst,
          (runEach_eq_ok_iff h rest hgoods).2 hrest,
          (h.merged (List.cons_ne_nil _ _) hy).2 hgives⟩

theorem runEach_eq_ok_iff (h : Associates merge gives good) : ∀ (parts : List Nesting)
    {ys : List Shape}, (∀ y ∈ ys, good y) →
      (runEach merge parts = .ok ys ↔ Forall₂ gives (inputsEach parts) ys)
  | [], ys, _ => by
    rw [runEach, inputsEach, forall₂_nil_left_iff, Except.ok.injEq, eq_comm]
  | part :: rest, [], _ => by
    simp [runEach, inputsEach, bind_eq_ok_iff, pure, Except.pure]
  | part :: rest, y :: ys, hys => by
    obtain ⟨hy, hys⟩ := List.forall_mem_cons.1 hys
    rw [inputsEach, forall₂_cons, ← run_eq_ok_iff h part hy, ← runEach_eq_ok_iff h rest hys]
    simp [runEach, bind_eq_ok_iff, pure, Except.pure]

end

end Nesting

/-! ## What groups give -/

theorem exists_forall₂ {α β : Type} {R : α → β → Prop} {xs : List α} (h : ∀ x ∈ xs, ∃ y, R x y) :
    ∃ ys, Forall₂ R xs ys := by
  induction xs with
  | nil => exact ⟨[], .nil⟩
  | cons x rest ih =>
    obtain ⟨⟨y, hy⟩, hrest⟩ := List.forall_mem_cons.1 h
    obtain ⟨ys, hys⟩ := ih hrest
    exact ⟨y :: ys, .cons hy hys⟩

/-- What all shapes give is what parts of them give, if every group has a part. -/
theorem flatten_iff_exists_parts {gives : List Shape → Shape → Prop} {groups : List (List Shape)}
    {y : Shape} (hparts : gives groups.flatten y → ∀ group ∈ groups, ∃ part, gives group part)
    (hflatten : ∀ {parts}, Forall₂ gives groups parts →
      (gives groups.flatten y ↔ gives parts y)) :
    gives groups.flatten y ↔ ∃ parts, Forall₂ gives groups parts ∧ gives parts y := by
  constructor
  · intro h
    obtain ⟨parts, hparts⟩ := exists_forall₂ (hparts h)
    exact ⟨parts, hparts, (hflatten hparts).1 h⟩
  · rintro ⟨parts, hparts, h⟩
    exact (hflatten hparts).2 h

namespace Shape

variable {groups : List (List Shape)} {parts : List Shape} {x y : Shape}

theorem joins_singleton : Joins [x] y ↔ x = y := by
  have hx : Joins [x] x := fun z => by simp
  constructor
  · exact hx.unique
  · rintro rfl
    exact hx

/-- What groups know together is what their parts know together. -/
theorem joins_flatten (h : Forall₂ Joins groups parts) :
    Joins groups.flatten y ↔ Joins parts y := by
  have hall : ∀ z : Shape, (∀ s ∈ groups.flatten, s.Admits z) ↔ ∀ part ∈ parts, part.Admits z := by
    intro z
    induction h with
    | nil => simp
    | cons hpart _ ih =>
      rw [List.flatten_cons, List.forall_mem_append, List.forall_mem_cons, ih, hpart z]
  simp only [Joins, hall]

end Shape

namespace Rule

variable {groups : List (List Shape)} {parts shapes : List Shape} {x y : Shape} {axis : Nat}

theorem lays_singleton : Lays axis [x] y ↔ x = y := by
  have hx : Lays axis [x] x := ⟨Shape.joins_singleton.2 rfl, (Dim.known_zero_plus _).symm⟩
  constructor
  · exact hx.unique
  · rintro rfl
    exact hx

/-- A sum that begins with a size is this size plus the sum from 0 on. -/
theorem foldl_plus_eq (a : Dim) (ds : List Dim) :
    ds.foldl Dim.plus a = a.plus (ds.foldl Dim.plus (.known 0)) := by
  have hassoc : ds.foldl Dim.plus (a.plus (.known 0)) = a.plus (ds.foldl Dim.plus (.known 0)) :=
    List.foldl_assoc
  rwa [Dim.plus_comm, Dim.known_zero_plus] at hassoc

/-- Groups laid end to end, one behind the other, are all their shapes laid end to end. -/
theorem lays_flatten (h : Forall₂ (Lays axis) groups parts) :
    Lays axis groups.flatten y ↔ Lays axis parts y := by
  have hentry : ∀ a, (groups.flatten.map (Shape.entry axis)).foldl Dim.plus a =
      (parts.map (Shape.entry axis)).foldl Dim.plus a := by
    induction h with
    | nil => exact fun a => rfl
    | cons hpart _ ih =>
      intro a
      rw [List.flatten_cons, List.map_append, List.foldl_append, ih, foldl_plus_eq a, ← hpart.entry]
      rfl
  have hopened : Shape.Joins (groups.flatten.map (Shape.opened axis)) (y.opened axis) ↔
      Shape.Joins (parts.map (Shape.opened axis)) (y.opened axis) := by
    rw [List.map_flatten]
    refine Shape.joins_flatten ?_
    rw [forall₂_map_left_iff, forall₂_map_right_iff]
    exact h.imp fun _ _ hpart => hpart.opened
  constructor
  · rintro ⟨hjoins, hsum⟩
    exact ⟨hopened.1 hjoins, hsum.trans (hentry _)⟩
  · rintro ⟨hjoins, hsum⟩
    exact ⟨hopened.2 hjoins, hsum.trans (hentry _).symm⟩

end Rule

/-! ## Sums and concatenations -/

theorem Param.checkSchema_eq_ok_iff {schema : List Spec} {params : Params} :
    checkSchema schema params = .ok () ↔ ∀ spec ∈ schema, ∀ value,
      params.get? spec.key = some value → spec.check value = .ok () := by
  induction schema with
  | nil => simp [checkSchema]
  | cons spec rest ih =>
    unfold checkSchema
    cases hstored : params.get? spec.key with
    | none => simp [hstored, ih]
    | some value => simp [hstored, bind_eq_ok_iff, Unique.exists_iff, ih]

theorem Settings.value_eq_ok_iff {settings : Settings} {key : String} {spec : Param.Spec}
    {value : Param.Value} (hspec : settings.schema.find? (·.key == key) = some spec) :
    settings.value key = .ok value ↔
      spec.check value = .ok () ∧ (settings.params.get? key).getD spec.default = value := by
  unfold Settings.value
  rw [hspec]
  simp only [bind_eq_ok_iff, pure, Except.pure, Except.ok.injEq]
  constructor
  · rintro ⟨_, hcheck, rfl⟩
    exact ⟨hcheck, rfl⟩
  · rintro ⟨hcheck, rfl⟩
    exact ⟨(), hcheck, rfl⟩

/-- Shapes that all enter by the default input. -/
def Inputs.entering (shapes : List Shape) : Inputs := ⟨shapes.map (Block.defaultInput, ·)⟩

@[simp] theorem Inputs.all_entering (shapes : List Shape) :
    (entering shapes).all Block.defaultInput = shapes := by
  unfold entering all
  induction shapes with
  | nil => rfl
  | cons shape rest ih => simpa using ih

/-- What a merge of shapes answers, said of all of them at once: they are merged if they agree, and
otherwise the first misfit is reported, at its position. -/
structure Rule.ClosedForm (axis? : Option Nat) (mismatch : Shape → ShapeError)
    (shapes : List Shape) (answer : Outcome Shape) : Prop where
  ok_iff (out : Shape) : answer = .ok out ↔
    Shape.Agree axis? shapes ∧ out = Shape.merged axis? shapes
  error_iff (f : Failure) : answer = .error f ↔
    ∃ i x, Shape.FirstMisfit axis? shapes i x ∧ f = .atPosition Block.defaultInput i (mismatch x)

namespace Rule

variable {axis : Nat} {first : Shape} {rest : List Shape} {mismatch : Shape → ShapeError}

/-- The closed form of a sum. -/
theorem closedForm_unify :
    ClosedForm none mismatch (first :: rest) (mergeFrom unify? mismatch 1 first.dims rest) where
  ok_iff out := by
    rw [mergeFrom_unify?_eq_ok_iff, Shape.joins_iff_agree (List.cons_ne_nil _ _)]
  error_iff f := mergeFrom_eq_error_iff_misfit fun rest => by
    simp only [mergeFrom_unify?_eq_ok_iff, Shape.joins_iff_agree (List.cons_ne_nil _ _),
      exists_and_left, exists_eq, and_true]

theorem closedForm_joinAt (haxis : axis < first.rank) : ClosedForm (some axis) mismatch
    (first :: rest) (mergeFrom (joinAt? axis) mismatch 1 first.dims rest) where
  ok_iff out := by
    rw [mergeFrom_joinAt?_eq_ok_iff, lays_iff_agree haxis]
  error_iff f := mergeFrom_eq_error_iff_misfit fun rest => by
    simp only [mergeFrom_joinAt?_eq_ok_iff, lays_iff_agree haxis, exists_and_left, exists_eq,
      and_true]

end Rule

/-- An axis does not exist iff it is outside of the range for the rank. -/
theorem Shape.axis?_eq_none_iff {x : Shape} {axis : Int} :
    x.axis? axis = none ↔ ¬ (-(x.rank : Int) ≤ axis ∧ axis < x.rank) := by
  simp only [axis?]
  split <;> split <;> simp only [reduceCtorEq, true_iff, false_iff] <;> omega

namespace Block

variable {block : Block} {params : Params} {inputs others : Inputs} {first out : Shape}
  {rest shapes : List Shape} {axis : Nat} {wanted : Int}

theorem outputShape_eq_rule (hschema : Param.checkSchema block.schema params = .ok ())
    (hconnected : ∀ h ∈ block.inputs, inputs.isConnected h.name = true) :
    block.outputShape params inputs = block.rule params inputs := by
  rw [outputShape, hschema, requireConnected_eq_ok_iff.2 hconnected]
  rfl

theorem isConnected_of_all_eq (hblock : block.inputs = [⟨defaultInput, true⟩])
    (hall : inputs.all defaultInput = first :: rest) :
    ∀ h ∈ block.inputs, inputs.isConnected h.name = true := by
  simp [hblock, Inputs.isConnected, hall]

theorem outputShape_add (hall : inputs.all defaultInput = first :: rest) :
    add.outputShape params inputs =
      Rule.mergeFrom Rule.unify? (.shapeMismatch first) 1 first.dims rest := by
  have hconnected : ∀ h ∈ add.inputs, inputs.isConnected h.name = true :=
    isConnected_of_all_eq rfl hall
  rw [outputShape_eq_rule rfl hconnected]
  simp [rule, Rule.add, hall]

/-- An axis that can be read fits the schema, which asks for nothing else. -/
theorem checkSchema_concat (hwanted : (concat.settings params).signed "axis" = .ok wanted) :
    Param.checkSchema concat.schema params = .ok () := by
  obtain ⟨value, hvalue, -⟩ := bind_eq_ok_iff.1 hwanted
  obtain ⟨hcheck, rfl⟩ := (Settings.value_eq_ok_iff rfl).1 hvalue
  refine Param.checkSchema_eq_ok_iff.2 (List.forall_mem_singleton.2 fun stored hstored => ?_)
  have hread : (concat.settings params).params.get? "axis" = some stored := hstored
  rwa [hread, Option.getD_some] at hcheck

theorem outputShape_concat (hwanted : (concat.settings params).signed "axis" = .ok wanted)
    (hall : inputs.all defaultInput = first :: rest) :
    concat.outputShape params inputs = Rule.resolveAxis first wanted >>= fun axis =>
      Rule.mergeFrom (Rule.joinAt? axis) (.axisMismatch axis first) 1 first.dims rest := by
  rw [outputShape_eq_rule (checkSchema_concat hwanted) (isConnected_of_all_eq rfl hall)]
  simp [rule, Rule.concat, hall, hwanted]

theorem outputShape_add_eq_ok_iff (hall : inputs.all defaultInput = first :: rest) :
    add.outputShape params inputs = .ok out ↔ Shape.Joins (first :: rest) out := by
  rw [outputShape_add hall, Rule.mergeFrom_unify?_eq_ok_iff]

/-- The axis may as well be looked for in the output. -/
theorem outputShape_concat_eq_ok_iff (hall : inputs.all defaultInput = first :: rest) :
    concat.outputShape params inputs = .ok out ↔
      ∃ wanted axis, (concat.settings params).signed "axis" = .ok wanted ∧
        out.axis? wanted = some axis ∧ Rule.Lays axis (first :: rest) out := by
  have hrank : ∀ {axis}, Rule.Lays axis (first :: rest) out → first.rank = out.rank :=
    fun h => h.rank_eq List.mem_cons_self
  constructor
  · intro h
    obtain ⟨-, -, hrule⟩ := outputShape_eq_ok_iff.1 h
    obtain ⟨wanted, axis, hwanted, haxis, hlays⟩ := Rule.concat_eq_ok_iff.1 hrule
    rw [hall] at haxis hlays
    refine ⟨wanted, axis, hwanted, ?_, hlays⟩
    rw [← Shape.axis?_eq_of_rank_eq (hrank hlays)]
    exact haxis first List.mem_cons_self
  · rintro ⟨wanted, axis, hwanted, haxis, hlays⟩
    rw [← Shape.axis?_eq_of_rank_eq (hrank hlays)] at haxis
    rw [outputShape_concat hwanted hall, Rule.resolveAxis_eq_ok_iff.2 haxis]
    exact Rule.mergeFrom_joinAt?_eq_ok_iff.2 hlays

/-- What a block makes of shapes that all enter by the default input. -/
def merge (block : Block) (params : Params) (shapes : List Shape) : Outcome Shape :=
  block.outputShape params (.entering shapes)

theorem add_associates (params : Params) :
    Nesting.Associates (add.merge params) Shape.Joins fun _ => True where
  single := Shape.joins_singleton
  merged hne _ := by
    obtain ⟨first, rest, rfl⟩ := List.exists_cons_of_ne_nil hne
    exact outputShape_add_eq_ok_iff (Inputs.all_entering _)
  flatten hne := by
    refine flatten_iff_exists_parts (fun h group hgroup => ?_) Shape.joins_flatten
    exact Rule.exists_joins (hne group hgroup) fun s hs =>
      h.admits (List.mem_flatten_of_mem hgroup hs)
  good_of_gives _ _ _ _ := trivial

/-- Every part of a concatenation has the axis in the same place, as it has the same rank. -/
theorem concat_associates (hwanted : (concat.settings params).signed "axis" = .ok wanted) :
    Nesting.Associates (concat.merge params) (Rule.Lays axis)
      fun shape => shape.axis? wanted = some axis where
  single := Rule.lays_singleton
  merged {shapes y} hne haxis := by
    obtain ⟨first, rest, rfl⟩ := List.exists_cons_of_ne_nil hne
    rw [merge, outputShape_concat_eq_ok_iff (Inputs.all_entering _)]
    constructor
    · rintro ⟨wanted', axis', hwanted', haxis', h⟩
      rw [hwanted] at hwanted'
      cases hwanted'
      rw [haxis] at haxis'
      cases haxis'
      exact h
    · intro h
      exact ⟨wanted, axis, hwanted, haxis, h⟩
  flatten hne := by
    refine flatten_iff_exists_parts (fun h group hgroup => ?_) Rule.lays_flatten
    exact Rule.exists_lays (hne group hgroup) fun s hs =>
      h.opened.admits (List.mem_map_of_mem (List.mem_flatten_of_mem hgroup hs))
  good_of_gives h haxis s hs := by
    rw [Shape.axis?_eq_of_rank_eq (h.rank_eq hs), haxis]

variable {part : Nesting} {parts : List Nesting}

theorem run_add_eq_ok_iff (hall : inputs.all defaultInput = (Nesting.merge part parts).inputs) :
    (Nesting.merge part parts).run (add.merge params) = .ok out ↔
      add.outputShape params inputs = .ok out := by
  obtain ⟨first, rest, hcons⟩ := List.exists_cons_of_ne_nil (Nesting.merge part parts).inputs_ne_nil
  rw [outputShape_add_eq_ok_iff (hall.trans hcons), ← hcons]
  exact Nesting.run_eq_ok_iff (add_associates params) _ trivial

theorem run_concat_eq_ok_iff (hall : inputs.all defaultInput = (Nesting.merge part parts).inputs) :
    (Nesting.merge part parts).run (concat.merge params) = .ok out ↔
      concat.outputShape params inputs = .ok out := by
  obtain ⟨first, rest, hcons⟩ := List.exists_cons_of_ne_nil (Nesting.merge part parts).inputs_ne_nil
  rw [outputShape_concat_eq_ok_iff (hall.trans hcons), ← hcons]
  constructor
  · intro h
    obtain ⟨shape, shapes, -, -, hmerge⟩ := Nesting.run_merge_eq_ok_iff.1 h
    -- the outermost merge has read the axis and found it in the output
    obtain ⟨wanted, axis, hwanted, haxis, -⟩ :=
      (outputShape_concat_eq_ok_iff (Inputs.all_entering _)).1 hmerge
    exact ⟨wanted, axis, hwanted, haxis,
      (Nesting.run_eq_ok_iff (concat_associates hwanted) _ haxis).1 h⟩
  · rintro ⟨wanted, axis, hwanted, haxis, h⟩
    exact (Nesting.run_eq_ok_iff (concat_associates hwanted) _ haxis).2 h

theorem resolveAxis_eq_error (h : ¬ (-(first.rank : Int) ≤ wanted ∧ wanted < first.rank)) :
    Rule.resolveAxis first wanted =
      .error (.atHandle defaultInput (.axisOutOfRange wanted first.rank)) := by
  rw [Rule.resolveAxis, Shape.axis?_eq_none_iff.2 h]

/-- **Sums and concatenations in closed form.** A sum succeeds iff its inputs agree, with what is
known of any of them; a concatenation needs an axis of its first input, and succeeds iff its inputs
agree but for this axis, along which they are added. What fails is reported at the least position up
to which the inputs do not agree. Neither the order of the inputs nor brackets around them change
whether they are merged, nor to which shape. -/
theorem merges_have_closed_form (params : Params) (inputs : Inputs) (first : Shape)
    (rest : List Shape) (hall : inputs.all defaultInput = first :: rest) :
    Rule.ClosedForm none (.shapeMismatch first) (first :: rest) (add.outputShape params inputs) ∧
    (∀ wanted, (concat.settings params).signed "axis" = .ok wanted →
      (¬ (-(first.rank : Int) ≤ wanted ∧ wanted < first.rank) →
        concat.outputShape params inputs =
          .error (.atHandle defaultInput (.axisOutOfRange wanted first.rank))) ∧
      ∀ axis : Nat, axis < first.rank → (wanted = axis ∨ wanted + first.rank = axis) →
        Rule.ClosedForm (some axis) (.axisMismatch axis first) (first :: rest)
          (concat.outputShape params inputs)) ∧
    ∀ block ∈ [add, concat], ∀ out,
      (∀ others : Inputs, (others.all defaultInput).Perm (first :: rest) →
        (block.outputShape params others = .ok out ↔ block.outputShape params inputs = .ok out)) ∧
      ∀ part parts, (Nesting.merge part parts).inputs = first :: rest →
        ((Nesting.merge part parts).run (block.merge params) = .ok out ↔
          block.outputShape params inputs = .ok out) := by
  refine ⟨?_, fun wanted hwanted => ⟨fun hout => ?_, fun axis hlt haxis => ?_⟩, ?_⟩
  · rw [outputShape_add hall]
    exact Rule.closedForm_unify
  · rw [outputShape_concat hwanted hall, resolveAxis_eq_error hout]
    rfl
  · have hresolved : first.axis? wanted = some axis := by
      rw [Shape.axis?_eq_some_iff]
      omega
    rw [outputShape_concat hwanted hall, Rule.resolveAxis_eq_ok_iff.2 hresolved]
    exact Rule.closedForm_joinAt hlt
  · have hother : ∀ others : Inputs, (others.all defaultInput).Perm (first :: rest) →
        ∃ first' rest', others.all defaultInput = first' :: rest' := fun others hperm =>
      List.exists_cons_of_ne_nil fun hnil => by simp [hnil] at hperm
    rw [List.forall_mem_cons, List.forall_mem_singleton]
    refine ⟨fun out => ⟨fun others hperm => ?_, fun part parts hinputs => ?_⟩,
      fun out => ⟨fun others hperm => ?_, fun part parts hinputs => ?_⟩⟩
    · obtain ⟨first', rest', hall'⟩ := hother others hperm
      rw [outputShape_add_eq_ok_iff hall, outputShape_add_eq_ok_iff hall', ← hall']
      exact Shape.joins_congr fun _ => hperm.mem_iff
    · exact run_add_eq_ok_iff (hall.trans hinputs.symm)
    · obtain ⟨first', rest', hall'⟩ := hother others hperm
      rw [outputShape_concat_eq_ok_iff hall, outputShape_concat_eq_ok_iff hall', ← hall']
      have hlays : ∀ axis, Rule.Lays axis (others.all defaultInput) out ↔
          Rule.Lays axis (first :: rest) out :=
        fun axis => ⟨Rule.Lays.perm hperm, Rule.Lays.perm hperm.symm⟩
      simp only [hlays]
    · exact run_concat_eq_ok_iff (hall.trans hinputs.symm)

/-- The third of three inputs does not fit the second, while the first leaves open where they
differ; along the first axis the three fit. -/
theorem merges_of_three :
    let shapes : List Shape :=
      [⟨[.unknown, .known 8]⟩, ⟨[.known 4, .known 8]⟩, ⟨[.known 5, .unknown]⟩]
    add.outputShape .empty (.entering shapes) = .error (.atPosition defaultInput 2
      (.shapeMismatch ⟨[.unknown, .known 8]⟩ ⟨[.known 5, .unknown]⟩)) ∧
    concat.outputShape .empty (.entering shapes) = .ok ⟨[.unknown, .known 8]⟩ := by
  intro shapes
  obtain ⟨hadd, hconcat, -⟩ :=
    merges_have_closed_form .empty (.entering shapes) _ _ (Inputs.all_entering shapes)
  have haxis : (concat.settings .empty).signed "axis" = .ok 0 := by decide +kernel
  have hfirst := (hconcat 0 haxis).2 0 (by decide) (Or.inl rfl)
  exact ⟨(hadd.error_iff _).2 ⟨2, ⟨[.known 5, .unknown]⟩, by decide, rfl⟩,
    (hfirst.ok_iff _).2 (by decide)⟩

end Block

end ShapeFlow
