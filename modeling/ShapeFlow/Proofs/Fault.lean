import ShapeFlow.Rule.Output
import ShapeFlow.Proofs.Outcome
import Mathlib.Data.List.Basic

/-!
# What a rule can object to

* `Objection`: the objections to one shape, each with the reason that makes it one.
* `Rule.Fault`: the failures of a rule on its inputs. An objection names the handle of the shape that
  it is about, and at a merging input its position.
* `Block.rule_fault`: **every failure of a rule is one of these.**
-/

namespace ShapeFlow

/-- Every failure of an outcome has a property. -/
def FailsOnly {α : Type} (P : Failure → Prop) (x : Outcome α) : Prop := ∀ f, x = .error f → P f

section FailsOnly

variable {α β : Type} {P : Failure → Prop} {x : Outcome α} {next : α → Outcome β}

theorem failsOnly_ok (a : α) : FailsOnly P (.ok a : Outcome α) := by
  intro f h
  cases h

theorem failsOnly_error {f : Failure} (h : P f) : FailsOnly P (.error f : Outcome α) := by
  intro f' h'
  cases h'
  exact h

/-- Two steps fail as the first one does, or as the second one does on what the first one gives. -/
theorem failsOnly_bind (hx : FailsOnly P x) (hnext : ∀ a, x = .ok a → FailsOnly P (next a)) :
    FailsOnly P (x >>= next) := by
  intro f h
  rcases bind_eq_error_iff.1 h with h | ⟨a, ha, h⟩
  · exact hx f h
  · exact hnext a ha f h

theorem failsOnly_map (f : α → β) (hx : FailsOnly P x) : FailsOnly P (x.map f) := by
  cases x with
  | ok a => exact failsOnly_ok _
  | error f => exact failsOnly_error (hx f rfl)

end FailsOnly

/-! ## Parameters -/

/-- An objection to a parameter. -/
def ShapeError.OfSetting (e : ShapeError) : Prop := ∃ key reason, e = .invalidParam key reason

namespace Param

/-- A value is refused with an objection to the parameter of its entry. -/
theorem Spec.check_error {spec : Spec} {value : Value} {e : ShapeError}
    (h : spec.check value = .error e) : e.OfSetting := by
  unfold Spec.check at h
  split at h
  · exact ⟨_, _, (Except.error.inj h).symm⟩
  · cases h

/-- A schema refuses parameters with an objection to one of them. -/
theorem checkSchema_error {schema : List Spec} {params : Params} {e : ShapeError}
    (h : checkSchema schema params = .error e) : e.OfSetting := by
  induction schema with
  | nil => cases h
  | cons spec rest ih =>
    unfold checkSchema at h
    cases hv : params.get? spec.key with
    | none => exact ih (by simpa [hv] using h)
    | some value =>
      simp only [hv, bind_eq_error_iff] at h
      rcases h with h | ⟨-, -, h⟩
      · exact Spec.check_error h
      · exact ih h

end Param

namespace Settings

variable {settings : Settings} {key : String} {e : ShapeError}

/-- A parameter that cannot be read is objected to, whether it is undeclared or refused. -/
theorem value_error (h : settings.value key = .error e) : e.OfSetting := by
  unfold value at h
  split at h
  · exact ⟨_, _, (Except.error.inj h).symm⟩
  · rcases bind_eq_error_iff.1 h with h | ⟨-, -, h⟩
    · exact Param.Spec.check_error h
    · cases h

theorem refuse_error {α : Type} {expected : String} {value : Param.Value}
    (h : (refuse key expected value : Except ShapeError α) = .error e) : e.OfSetting :=
  ⟨_, _, (Except.error.inj h).symm⟩

/-- A word cannot be read of a value that is refused, of a negative number, or of another form. -/
theorem word_error (h : settings.word key = .error e) : e.OfSetting := by
  unfold word at h
  rcases bind_eq_error_iff.1 h with h | ⟨value, -, h⟩
  · exact value_error h
  · split at h
    · split at h
      · cases h
      · exact refuse_error h
    · exact refuse_error h

theorem constraint_error (h : settings.constraint key = .error e) : e.OfSetting := by
  unfold constraint at h
  rcases bind_eq_error_iff.1 h with h | ⟨size, -, h⟩
  · exact word_error h
  · cases h

theorem signed_error (h : settings.signed key = .error e) : e.OfSetting := by
  unfold signed at h
  rcases bind_eq_error_iff.1 h with h | ⟨value, -, h⟩
  · exact value_error h
  · split at h
    · cases h
    · exact refuse_error h

theorem flag_error (h : settings.flag key = .error e) : e.OfSetting := by
  unfold flag at h
  rcases bind_eq_error_iff.1 h with h | ⟨value, -, h⟩
  · exact value_error h
  · split at h
    · cases h
    · exact refuse_error h

theorem text_error (h : settings.text key = .error e) : e.OfSetting := by
  unfold text at h
  rcases bind_eq_error_iff.1 h with h | ⟨value, -, h⟩
  · exact value_error h
  · split at h
    · cases h
    · exact refuse_error h

theorem pair_error (h : settings.pair key = .error e) : e.OfSetting := by
  unfold pair at h
  rcases bind_eq_error_iff.1 h with h | ⟨value, -, h⟩
  · exact value_error h
  · split at h
    · cases h
    · cases h
    · exact refuse_error h

end Settings

/-! ## Single shapes -/

/-- The objections to one shape. -/
inductive Objection (x : Shape) : ShapeError → Prop
  | rank (expected : String) : Objection x (.rankMismatch expected x.rank)
  | axis {axis : Int} (h : x.axis? axis = none) : Objection x (.axisOutOfRange axis x.rank)
  | size {param : String} {expected actual : UInt64} (hmem : .known actual ∈ x.dims)
      (h : actual ≠ expected) : Objection x (.dimensionMismatch param expected actual)
  | length {maxLen actual : UInt64} (hmem : .known actual ∈ x.dims) (h : maxLen < actual) :
      Objection x (.sequenceTooLong maxLen actual)
  | extent {axis : String} {size : Int} (h : size ≤ 0) :
      Objection x (.invalidSpatialReduction axis size)
  | width {expected actual : UInt64} (hlast : x.last? = some (.known actual))
      (h : actual ≠ expected) : Objection x (.embeddingDimMismatch expected actual)

/-- A failure of the parameters, or an objection to a shape that names its handle. -/
def ShapeFault (handle : String) (x : Shape) (f : Failure) : Prop :=
  (∃ e : ShapeError, e.OfSetting ∧ f = .ofError e) ∨ ∃ e, Objection x e ∧ f = .atHandle handle e

namespace Rule

variable {handle : String} {x : Shape} {settings : Settings} {d : Dim}

/-- A parameter that cannot be read is a failure of the parameters, at no handle. -/
theorem configured_shapeFault {α : Type} {reading : Except ShapeError α}
    (h : ∀ e, reading = .error e → e.OfSetting) :
    FailsOnly (ShapeFault handle x) (configured reading) := by
  intro f hf
  obtain ⟨e, he, rfl⟩ := configured_eq_error_iff.1 hf
  exact Or.inl ⟨e, h e he, rfl⟩

/-- An objection to the shape is a failure at its handle. -/
theorem objection_shapeFault {α : Type} {e : ShapeError} (h : Objection x e) :
    FailsOnly (ShapeFault handle x) (.error (.atHandle handle e) : Outcome α) :=
  failsOnly_error (Or.inr ⟨e, h, rfl⟩)

/-- Only a shape without dimensions has no trailing one. -/
theorem trailing_shapeFault : FailsOnly (ShapeFault handle x) (trailing handle x) := by
  unfold trailing
  split
  · exact failsOnly_ok _
  · exact objection_shapeFault (.rank _)

/-- The trailing dimension belongs to the shape, so an objection to it is one to the shape. -/
theorem mem_dims_of_trailing (h : trailing handle x = .ok d) : d ∈ x.dims := by
  unfold trailing at h
  split at h
  · next hlast =>
    cases h
    exact List.mem_of_getLast? hlast
  · cases h

/-- A known size that is not the expected one is an objection to the shape that it stands in. -/
theorem expectSize_shapeFault {param : String} {expected : UInt64} (hd : d ∈ x.dims) :
    FailsOnly (ShapeFault Block.defaultInput x) (expectSize param expected d) := by
  unfold expectSize
  split
  · split
    · exact failsOnly_ok _
    · next hne => exact objection_shapeFault (.size hd hne)
  · exact failsOnly_ok _

theorem expectConstraint_shapeFault {param : String} (hd : d ∈ x.dims) :
    FailsOnly (ShapeFault Block.defaultInput x) (expectConstraint settings param d) := by
  unfold expectConstraint
  refine failsOnly_bind (configured_shapeFault fun _ => Settings.constraint_error) fun size _ => ?_
  cases size with
  | none => exact failsOnly_ok _
  | some expected => exact expectSize_shapeFault hd

/-- A known length above the greatest one is an objection to the shape that it stands in. -/
theorem expectWithin_shapeFault {maxLen : UInt64} (hd : d ∈ x.dims) :
    FailsOnly (ShapeFault Block.defaultInput x) (expectWithin maxLen d) := by
  unfold expectWithin
  split
  · split
    · next hlt => exact objection_shapeFault (.length hd hlt)
    · exact failsOnly_ok _
  · exact failsOnly_ok _

/-- An axis fails to be resolved only outside of the rank. -/
theorem resolveAxis_shapeFault {axis : Int} :
    FailsOnly (ShapeFault Block.defaultInput x) (resolveAxis x axis) := by
  unfold resolveAxis
  split
  · exact failsOnly_ok _
  · next h => exact objection_shapeFault (.axis h)

/-- A window that does not fit leaves an extent that is not positive. -/
theorem convExtent_shapeFault {axis : String} {kernel stride padding : UInt64} :
    FailsOnly (ShapeFault Block.defaultInput x) (convExtent axis d kernel stride padding) := by
  unfold convExtent
  split
  · exact failsOnly_ok _
  · dsimp only
    split
    · next hle =>
      -- the reported count stays below zero when it is cut to a word
      exact objection_shapeFault (.extent (Int.max_le.2 ⟨hle, by decide⟩))
    · exact failsOnly_ok _

/-! ### The rules for a single input -/

theorem linear_shapeFault : FailsOnly (ShapeFault Block.defaultInput x) (linear settings x) := by
  unfold linear
  refine failsOnly_bind (configured_shapeFault fun _ => Settings.word_error) fun inFeatures _ => ?_
  refine failsOnly_bind (configured_shapeFault fun _ => Settings.word_error) fun outFeatures _ => ?_
  refine failsOnly_bind trailing_shapeFault fun last hlast => ?_
  refine failsOnly_bind (expectSize_shapeFault (mem_dims_of_trailing hlast)) fun _ _ => ?_
  exact failsOnly_ok _

/-- A convolution objects to the rank, to the channels, to the height or to the width. -/
theorem conv2D_shapeFault : FailsOnly (ShapeFault Block.defaultInput x) (conv2D settings x) := by
  unfold conv2D
  split
  · next channels height width hdims =>
    have hd : channels ∈ x.dims := by simp [hdims]
    refine failsOnly_bind (expectConstraint_shapeFault hd) fun _ _ => ?_
    refine failsOnly_bind (configured_shapeFault fun _ => Settings.word_error) fun out _ => ?_
    refine failsOnly_bind (configured_shapeFault fun _ => Settings.pair_error) fun kernel _ => ?_
    refine failsOnly_bind (configured_shapeFault fun _ => Settings.pair_error) fun stride _ => ?_
    refine failsOnly_bind (configured_shapeFault fun _ => Settings.pair_error) fun padding _ => ?_
    refine failsOnly_bind convExtent_shapeFault fun _ _ => ?_
    refine failsOnly_bind convExtent_shapeFault fun _ _ => ?_
    exact failsOnly_ok _
  · exact objection_shapeFault (.rank _)

/-- What is judged once the shape of a sequence or of one step of it is taken apart. -/
theorem recurrence_shapeFault {features : Dim} {next : UInt64 → Bool → Outcome Shape}
    (hd : features ∈ x.dims)
    (hnext : ∀ hidden sequences, FailsOnly (ShapeFault Block.defaultInput x) (next hidden sequences)) :
    FailsOnly (ShapeFault Block.defaultInput x) (do
      expectConstraint settings "input_size" features
      let hidden ← configured (settings.word "hidden_size")
      let sequences ← configured (settings.flag "return_sequences")
      next hidden sequences) := by
  refine failsOnly_bind (expectConstraint_shapeFault hd) fun _ _ => ?_
  refine failsOnly_bind (configured_shapeFault fun _ => Settings.word_error) fun hidden _ => ?_
  refine failsOnly_bind (configured_shapeFault fun _ => Settings.flag_error) fun sequences _ => ?_
  exact hnext hidden sequences

/-- A recurrent layer takes one step or a sequence of them, and objects to any other rank. -/
theorem lstm_shapeFault : FailsOnly (ShapeFault Block.defaultInput x) (lstm settings x) := by
  unfold lstm
  dsimp only
  split
  · next features hdims =>
    have hd : features ∈ x.dims := by simp [hdims]
    refine recurrence_shapeFault hd fun hidden sequences => ?_
    exact failsOnly_ok _
  · next steps features hdims =>
    have hd : features ∈ x.dims := by simp [hdims]
    refine recurrence_shapeFault hd fun hidden sequences => ?_
    cases sequences with
    | true => exact failsOnly_ok _
    | false => exact failsOnly_ok _
  · exact objection_shapeFault (.rank _)

theorem layerNorm_shapeFault :
    FailsOnly (ShapeFault Block.defaultInput x) (layerNorm settings x) := by
  unfold layerNorm
  refine failsOnly_bind trailing_shapeFault fun last hlast => ?_
  refine failsOnly_bind (expectConstraint_shapeFault (mem_dims_of_trailing hlast)) fun _ _ => ?_
  exact failsOnly_ok _

theorem batchNorm_shapeFault :
    FailsOnly (ShapeFault Block.defaultInput x) (batchNorm settings x) := by
  unfold batchNorm
  split
  · exact objection_shapeFault (.rank _)
  · next channels rest hdims =>
    have hd : channels ∈ x.dims := by simp [hdims]
    refine failsOnly_bind (expectConstraint_shapeFault hd) fun _ _ => ?_
    exact failsOnly_ok _

theorem softmax_shapeFault : FailsOnly (ShapeFault Block.defaultInput x) (softmax settings x) := by
  unfold softmax
  refine failsOnly_bind (configured_shapeFault fun _ => Settings.signed_error) fun axis _ => ?_
  refine failsOnly_bind resolveAxis_shapeFault fun _ _ => ?_
  exact failsOnly_ok _

theorem embedding_shapeFault :
    FailsOnly (ShapeFault Block.defaultInput x) (embedding settings x) := by
  unfold embedding
  refine failsOnly_bind (configured_shapeFault fun _ => Settings.word_error) fun width _ => ?_
  split
  · exact failsOnly_ok _
  · exact objection_shapeFault (.rank _)

theorem positionalEncoding_shapeFault :
    FailsOnly (ShapeFault Block.defaultInput x) (positionalEncoding settings x) := by
  unfold positionalEncoding
  refine failsOnly_bind trailing_shapeFault fun last hlast => ?_
  refine failsOnly_bind (expectConstraint_shapeFault (mem_dims_of_trailing hlast)) fun _ _ => ?_
  split
  · next features steps rest hdims =>
    have hd : steps ∈ x.dims := by
      rw [← List.mem_reverse, hdims]
      simp
    refine failsOnly_bind (configured_shapeFault fun _ => Settings.word_error) fun maxLen _ => ?_
    refine failsOnly_bind (expectWithin_shapeFault hd) fun _ _ => ?_
    exact failsOnly_ok _
  · exact failsOnly_ok _

theorem positionalEmbedding_shapeFault :
    FailsOnly (ShapeFault Block.defaultInput x) (positionalEmbedding settings x) := by
  unfold positionalEmbedding
  split
  · next steps features hdims =>
    have hf : features ∈ x.dims := by simp [hdims]
    have hs : steps ∈ x.dims := by simp [hdims]
    refine failsOnly_bind (expectConstraint_shapeFault hf) fun _ _ => ?_
    refine failsOnly_bind (configured_shapeFault fun _ => Settings.word_error) fun maxLen _ => ?_
    refine failsOnly_bind (expectWithin_shapeFault hs) fun _ _ => ?_
    exact failsOnly_ok _
  · exact objection_shapeFault (.rank _)

/-! ### Several inputs -/

/-- A merge fails at the position of an input, with the mismatch made of this input. -/
theorem mergeFrom_error {merge? : List Dim → List Dim → Option (List Dim)}
    {mismatch : Shape → ShapeError} {position : Nat} {merged : List Dim} {rest : List Shape}
    {f : Failure} (h : mergeFrom merge? mismatch position merged rest = .error f) :
    ∃ i shape, rest[i]? = some shape ∧
      f = .atPosition Block.defaultInput (position + i) (mismatch shape) := by
  induction rest generalizing position merged with
  | nil => cases h
  | cons shape rest ih =>
    unfold mergeFrom at h
    split at h
    · obtain ⟨i, shape', hi, rfl⟩ := ih h
      exact ⟨i + 1, shape', by simpa using hi, by rw [Nat.add_right_comm, Nat.add_assoc]⟩
    · exact ⟨0, shape, rfl, (Except.error.inj h).symm⟩

/-- Where attention finds no common width, it objects to one of its inputs at the handle of that
input. -/
theorem agreeOn_error {fixed : Option UInt64} {connected : List (String × Shape)} {f : Failure}
    (h : agreeOn fixed connected = .error f) :
    ∃ handle x, (handle, x) ∈ connected ∧ ∃ e, Objection x e ∧ f = .atHandle handle e := by
  induction connected generalizing fixed with
  | nil => cases h
  | cons first rest ih =>
    obtain ⟨handle, x⟩ := first
    have later : ∀ fixed, agreeOn fixed rest = .error f → ∃ handle' x',
        (handle', x') ∈ (handle, x) :: rest ∧ ∃ e, Objection x' e ∧ f = .atHandle handle' e := by
      intro fixed h
      obtain ⟨handle', x', hm, he⟩ := ih h
      exact ⟨handle', x', List.mem_cons_of_mem _ hm, he⟩
    unfold agreeOn at h
    cases hlast : x.last? with
    | none =>
      simp only [trailing, hlast, error_bind, Except.error.injEq] at h
      exact ⟨handle, x, List.mem_cons_self, _, .rank _, h.symm⟩
    | some d =>
      simp only [trailing, hlast, ok_bind] at h
      split at h
      · next expected actual =>
        split at h
        · exact later _ h
        · next hne =>
          exact ⟨handle, x, List.mem_cons_self, _, .width hlast hne, (Except.error.inj h).symm⟩
      · exact later _ h
      · exact later _ h

/-- **The failures of a rule** on its inputs. -/
inductive Fault (inputs : Inputs) : Failure → Prop
  | setting {e : ShapeError} (h : e.OfSetting) : Fault inputs (.ofError e)
  | dataset {name : String} (h : datasetShape? name = none) :
      Fault inputs (.ofError (.unknownDataset name))
  | missing (h : inputs.all Block.defaultInput = []) : Fault inputs (missing Block.defaultInput)
  | shape {handle : String} {x : Shape} {e : ShapeError} (hx : inputs.first? handle = some x)
      (h : Objection x e) : Fault inputs (.atHandle handle e)
  | sum {position : Nat} {first x : Shape} (hpos : 0 < position)
      (hfirst : (inputs.all Block.defaultInput)[0]? = some first)
      (hx : (inputs.all Block.defaultInput)[position]? = some x) :
      Fault inputs (.atPosition Block.defaultInput position (.shapeMismatch first x))
  | joint {axis position : Nat} {first x : Shape} (hpos : 0 < position)
      (hfirst : (inputs.all Block.defaultInput)[0]? = some first)
      (hx : (inputs.all Block.defaultInput)[position]? = some x) :
      Fault inputs (.atPosition Block.defaultInput position (.axisMismatch axis first x))

variable {inputs : Inputs} {α : Type}

theorem single_fault : FailsOnly (Fault inputs) (single inputs) := by
  unfold single
  split
  · exact failsOnly_ok _
  · next hnone => exact failsOnly_error (.missing (List.head?_eq_none_iff.1 hnone))

/-- A single input is the first one at its handle. -/
theorem first?_of_single {x : Shape} (h : single inputs = .ok x) :
    inputs.first? Block.defaultInput = some x := by
  unfold single at h
  split at h
  · next hx => rw [hx, Except.ok.inj h]
  · cases h

/-- A rule for a single input fails for want of it, or as it fails on the first shape. -/
theorem single_bind_fault {rule : Shape → Outcome α}
    (h : ∀ x, FailsOnly (ShapeFault Block.defaultInput x) (rule x)) :
    FailsOnly (Fault inputs) (single inputs >>= rule) := by
  refine failsOnly_bind single_fault fun x hx f hf => ?_
  rcases h x f hf with ⟨e, he, rfl⟩ | ⟨e, he, rfl⟩
  · exact .setting he
  · exact .shape (first?_of_single hx) he

theorem configured_fault {reading : Except ShapeError α}
    (h : ∀ e, reading = .error e → e.OfSetting) : FailsOnly (Fault inputs) (configured reading) := by
  intro f hf
  obtain ⟨e, he, rfl⟩ := configured_eq_error_iff.1 hf
  exact .setting (h e he)

theorem input_fault {settings : Settings} : FailsOnly (Fault inputs) (input settings) := by
  unfold input
  refine failsOnly_bind (configured_fault fun _ => Settings.text_error) fun name _ => ?_
  split
  · exact failsOnly_ok _
  · next h => exact failsOnly_error (.dataset h)

theorem textInput_fault {settings : Settings} : FailsOnly (Fault inputs) (textInput settings) := by
  unfold textInput
  refine failsOnly_bind (configured_fault fun _ => Settings.word_error) fun _ _ => ?_
  exact failsOnly_ok _

/-- Each input of attention is the first one at its own handle. -/
theorem first?_of_mem_attentionInputs {handle : String} {x : Shape}
    (h : (handle, x) ∈ attentionInputs inputs) : inputs.first? handle = some x := by
  obtain ⟨name, -, hname⟩ := List.mem_filterMap.1 h
  obtain ⟨y, hy, heq⟩ := Option.map_eq_some_iff.1 hname
  obtain ⟨rfl, rfl⟩ := Prod.mk.inj heq
  exact hy

/-- Attention fails for its parameters, or where its inputs do not agree on a width. -/
theorem attention_error {settings : Settings} {f : Failure}
    (h : attention settings inputs = .error f) :
    (∃ e : ShapeError, e.OfSetting ∧ f = .ofError e) ∨
      ∃ fixed, agreeOn fixed (attentionInputs inputs) = .error f := by
  have hagree : ∀ fixed, (do
      agreeOn fixed (attentionInputs inputs)
      return ((attentionInputs inputs).head?.map (·.2)).getD ⟨[]⟩ : Outcome Shape) = .error f →
        ∃ fixed, agreeOn fixed (attentionInputs inputs) = .error f := by
    intro fixed h
    obtain h | ⟨-, -, h⟩ := bind_eq_error_iff.1 h
    · exact ⟨fixed, h⟩
    · cases h
  unfold attention at h
  obtain h | ⟨embedDim, -, h⟩ := bind_eq_error_iff.1 h
  · obtain ⟨e, he, rfl⟩ := configured_eq_error_iff.1 h
    exact Or.inl ⟨e, Settings.constraint_error he, rfl⟩
  obtain h | ⟨heads, -, h⟩ := bind_eq_error_iff.1 h
  · obtain ⟨e, he, rfl⟩ := configured_eq_error_iff.1 h
    exact Or.inl ⟨e, Settings.word_error he, rfl⟩
  cases embedDim with
  | none => exact Or.inr (hagree none h)
  | some dim =>
    dsimp only at h
    split at h
    · cases h
      exact Or.inl ⟨_, ⟨_, _, rfl⟩, rfl⟩
    · exact Or.inr (hagree (some dim) h)

theorem attention_fault {settings : Settings} :
    FailsOnly (Fault inputs) (attention settings inputs) := by
  intro f hf
  obtain ⟨e, he, rfl⟩ | ⟨fixed, hagree⟩ := attention_error hf
  · exact .setting he
  · obtain ⟨handle, x, hx, e, he, rfl⟩ := agreeOn_error hagree
    exact .shape (first?_of_mem_attentionInputs hx) he

/-- A sum fails without inputs, or at an input behind the first one, as a mismatch with the first
one. -/
theorem add_fault : FailsOnly (Fault inputs) (add inputs) := by
  unfold add
  split
  · next hnil => exact failsOnly_error (.missing hnil)
  · next first rest hcons =>
    intro f hf
    obtain ⟨i, x, hi, rfl⟩ := mergeFrom_error hf
    exact .sum (by omega) (by simp [hcons]) (by rw [hcons, Nat.add_comm]; simpa using hi)

/-- A concatenation fails like a sum, and also where the first input does not have the axis. -/
theorem concat_fault {settings : Settings} : FailsOnly (Fault inputs) (concat settings inputs) := by
  unfold concat
  split
  · next hnil => exact failsOnly_error (.missing hnil)
  · next first rest hcons =>
    refine failsOnly_bind (configured_fault fun _ => Settings.signed_error) fun axis _ => ?_
    refine failsOnly_bind (fun f hf => ?_) fun position _ f hf => ?_
    · rcases resolveAxis_shapeFault f hf with ⟨e, he, rfl⟩ | ⟨e, he, rfl⟩
      · exact .setting he
      · exact .shape (by simp [Inputs.first?, hcons]) he
    · obtain ⟨i, x, hi, rfl⟩ := mergeFrom_error hf
      exact .joint (by omega) (by simp [hcons]) (by rw [hcons, Nat.add_comm]; simpa using hi)

end Rule

namespace Rule.Fault

variable {inputs : Inputs} {f : Failure}

/-- A rule knows nothing of the graph around it. -/
theorem error_isLocal (h : Fault inputs f) : f.error.isLocal = true := by
  cases h with
  | setting h =>
    obtain ⟨key, reason, rfl⟩ := h
    rfl
  | shape _ h => cases h <;> rfl
  | dataset | missing | sum | joint => rfl

/-- A rule misses an input only when it has none. -/
theorem all_eq_nil_of_missingInput (h : Fault inputs f) {name : String}
    (he : f.error = .missingInput name) :
    f.handle = some Block.defaultInput ∧ inputs.all Block.defaultInput = [] := by
  cases h with
  | missing hnil => exact ⟨rfl, hnil⟩
  | setting h =>
    obtain ⟨key, reason, rfl⟩ := h
    cases he
  | shape _ h => cases h <;> cases he
  | dataset | sum | joint => cases he

end Rule.Fault

/-- **Every failure of a rule is accounted for.** -/
theorem Block.rule_fault (block : Block) (params : Params) (inputs : Inputs) :
    FailsOnly (Rule.Fault inputs) (block.rule params inputs) := by
  cases block with
  | input => exact Rule.input_fault
  | textInput => exact Rule.textInput_fault
  | linear => exact Rule.single_bind_fault fun _ => Rule.linear_shapeFault
  | conv2D => exact Rule.single_bind_fault fun _ => Rule.conv2D_shapeFault
  | lstm => exact Rule.single_bind_fault fun _ => Rule.lstm_shapeFault
  | attention => exact Rule.attention_fault
  | layerNorm => exact Rule.single_bind_fault fun _ => Rule.layerNorm_shapeFault
  | batchNorm => exact Rule.single_bind_fault fun _ => Rule.batchNorm_shapeFault
  | softmax => exact Rule.single_bind_fault fun _ => Rule.softmax_shapeFault
  | activation => exact Rule.single_fault
  | dropout => exact Rule.single_fault
  | output => exact Rule.single_fault
  | flatten => exact failsOnly_map _ Rule.single_fault
  | embedding => exact Rule.single_bind_fault fun _ => Rule.embedding_shapeFault
  | textEmbedding => exact Rule.single_bind_fault fun _ => Rule.embedding_shapeFault
  | add => exact Rule.add_fault
  | concat => exact Rule.concat_fault
  | positionalEncoding => exact Rule.single_bind_fault fun _ => Rule.positionalEncoding_shapeFault
  | positionalEmbedding => exact Rule.single_bind_fault fun _ => Rule.positionalEmbedding_shapeFault
  | board => exact failsOnly_ok _

end ShapeFlow
