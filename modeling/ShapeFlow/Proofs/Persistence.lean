import ShapeFlow.Proofs.Judgement
import ShapeFlow.Proofs.Nesting

/-!
# More inputs repair nothing

* `Inputs.Extends`: at every handle, further shapes behind those at hand.
* `Rule.Persists`: an outcome that blames an input stays one that blames an input.
* `Block.rule_persists`: **a rule that blames one of its inputs does so on all that extend them.**
* `Block.candidate_checks_persist`: what this says of candidates, and when the check of a candidate
  and the output shape agree.
-/

namespace ShapeFlow

variable {α β : Type}

/-! ## More inputs -/

namespace Inputs

variable {inputs others : Inputs} {name handle : String}

/-- Further shapes, one after the other. -/
def pushAll (inputs : Inputs) (more : List (String × Shape)) : Inputs :=
  more.foldl (fun held arrival => held.push arrival.1 arrival.2) inputs

/-- At every handle, further shapes behind those at hand. -/
def Extends (inputs others : Inputs) : Prop :=
  ∀ handle, inputs.all handle <+: others.all handle

theorem extends_push (inputs : Inputs) (name : String) (shape : Shape) :
    inputs.Extends (inputs.push name shape) := by
  intro handle
  rw [all, all, push, List.filter_append, List.map_append]
  exact List.prefix_append _ _

theorem extends_pushAll (inputs : Inputs) (more : List (String × Shape)) :
    inputs.Extends (inputs.pushAll more) := by
  induction more generalizing inputs with
  | nil => exact fun _ => List.prefix_rfl
  | cons arrival rest ih =>
    exact fun handle => (extends_push _ _ _ handle).trans (ih _ handle)

theorem all_push_of_ne (inputs : Inputs) (shape : Shape) (h : name ≠ handle) :
    (inputs.push name shape).all handle = inputs.all handle := by
  simp [all, push, h]

theorem Extends.first? (h : inputs.Extends others) {x : Shape}
    (hx : inputs.first? handle = some x) : others.first? handle = some x := by
  obtain ⟨later, hlater⟩ := h handle
  obtain ⟨rest, hall⟩ := List.head?_eq_some_iff.1 hx
  rw [Inputs.first?, ← hlater, hall]
  rfl

end Inputs

/-! ## Refusals -/

namespace Rule

variable {x y : Outcome α} {next next' : α → Outcome β} {inputs others : Inputs}
  {settings : Settings}

/-- An outcome that blames an input. -/
def Refuses (x : Outcome α) : Prop := ∃ f, x = .error f ∧ Block.blamesInput f = true

/-- An outcome that blames an input, if another one does. -/
def Persists (x : Outcome α) (y : Outcome β) : Prop := Refuses x → Refuses y

theorem not_refuses_ok (a : α) : ¬ Refuses (.ok a : Outcome α) := by
  rintro ⟨f, hf, -⟩
  cases hf

theorem not_refuses_missing (handle : String) :
    ¬ Refuses (.error (missing handle) : Outcome α) := by
  rintro ⟨f, hf, hblames⟩
  cases hf
  cases hblames

theorem persists_refl (x : Outcome α) : Persists x x := id

/-- What is missing now may come later. -/
theorem persists_missing (handle : String) (y : Outcome β) :
    Persists (.error (missing handle) : Outcome α) y :=
  fun hrefuses => absurd hrefuses (not_refuses_missing handle)

/-- What is done before further steps fails with them too. -/
theorem persists_bind_right (x : Outcome α) (next : α → Outcome β) : Persists x (x >>= next) := by
  rintro ⟨f, rfl, hblames⟩
  exact ⟨f, rfl, hblames⟩

/-- Outcomes that begin in the same way. -/
theorem persists_bind (x : Outcome α) (h : ∀ a, Persists (next a) (next' a)) :
    Persists (x >>= next) (x >>= next') := by
  cases x with
  | ok a => exact h a
  | error f => exact persists_refl _

/-- A rule for a single input asks the same of it when others come behind. -/
theorem single_persists (rule : Outcome Shape → Outcome α) (h : inputs.Extends others)
    (hrule : rule (.error (missing Block.defaultInput)) = .error (missing Block.defaultInput)) :
    Persists (rule (single inputs)) (rule (single others)) := by
  unfold single
  cases hx : inputs.first? Block.defaultInput with
  | none =>
    simp only [hrule]
    exact persists_missing _ _
  | some x =>
    rw [h.first? hx]
    exact persists_refl _

/-- A merge goes on behind the inputs that are merged already. -/
theorem mergeFrom_append {merge? : List Dim → List Dim → Option (List Dim)}
    {mismatch : Shape → ShapeError} (position : Nat) (merged : List Dim)
    (shapes later : List Shape) :
    mergeFrom merge? mismatch position merged (shapes ++ later) =
      mergeFrom merge? mismatch position merged shapes >>= fun out =>
        mergeFrom merge? mismatch (position + shapes.length) out.dims later := by
  induction shapes generalizing position merged with
  | nil => rfl
  | cons shape rest ih =>
    rw [List.cons_append, mergeFrom, mergeFrom]
    cases merge? merged shape.dims with
    | none => rfl
    | some m =>
      simp only [ih, List.length_cons]
      rw [Nat.add_right_comm, Nat.add_assoc]

theorem add_persists (h : inputs.Extends others) : Persists (add inputs) (add others) := by
  obtain ⟨later, hlater⟩ := h Block.defaultInput
  unfold add
  rw [← hlater]
  cases inputs.all Block.defaultInput with
  | nil => exact persists_missing _ _
  | cons first rest =>
    simp only [List.cons_append, mergeFrom_append]
    exact persists_bind_right _ _

theorem concat_persists (h : inputs.Extends others) :
    Persists (concat settings inputs) (concat settings others) := by
  obtain ⟨later, hlater⟩ := h Block.defaultInput
  unfold concat
  rw [← hlater]
  cases inputs.all Block.defaultInput with
  | nil => exact persists_missing _ _
  | cons first rest =>
    simp only [List.cons_append, mergeFrom_append]
    exact persists_bind _ fun wanted => persists_bind _ fun axis => persists_bind_right _ _

theorem attentionInputs_subset (h : inputs.Extends others) :
    attentionInputs inputs ⊆ attentionInputs others := by
  rintro ⟨handle, x⟩ hx
  obtain ⟨name, hname, hfirst⟩ := List.mem_filterMap.1 hx
  obtain ⟨y, hy, hentry⟩ := Option.map_eq_some_iff.1 hfirst
  refine List.mem_filterMap.2 ⟨name, hname, ?_⟩
  rw [h.first? hy, Option.map_some, hentry]

/-- All failures of agreement blame one of the inputs. -/
theorem refuses_agreeOn {fixed : Option UInt64} {connected : List (String × Shape)}
    (h : agreeOn fixed connected ≠ .ok ()) : Refuses (agreeOn fixed connected) := by
  cases hagree : agreeOn fixed connected with
  | ok => exact absurd hagree h
  | error f =>
    obtain ⟨handle, x, -, e, he, rfl⟩ := agreeOn_error hagree
    exact ⟨_, rfl, by cases he <;> rfl⟩

/-- A width that fits all inputs fits the fewer, whichever of them fixed it. -/
theorem agreeOn_persists {fixed : Option UInt64} {connected more : List (String × Shape)}
    (hsub : connected ⊆ more) : Persists (agreeOn fixed connected) (agreeOn fixed more) := by
  intro hrefuses
  refine refuses_agreeOn fun hmore => ?_
  obtain ⟨width, hfixed, hfits⟩ := agreeOn_eq_ok_iff.1 hmore
  have hok : agreeOn fixed connected = .ok () :=
    agreeOn_eq_ok_iff.2 ⟨width, hfixed, fun entry hentry => hfits entry (hsub hentry)⟩
  rw [hok] at hrefuses
  exact not_refuses_ok () hrefuses

theorem attention_persists (h : inputs.Extends others) :
    Persists (attention settings inputs) (attention settings others) := by
  have hagree : ∀ fixed (a b : Shape),
      Persists (agreeOn fixed (attentionInputs inputs) >>= fun _ => .ok a)
        (agreeOn fixed (attentionInputs others) >>= fun _ => .ok b) := by
    intro fixed a b ⟨f, hf, hblames⟩
    rcases bind_eq_error_iff.1 hf with hf | ⟨_, _, hf⟩
    · exact persists_bind_right _ _
        (agreeOn_persists (attentionInputs_subset h) ⟨f, hf, hblames⟩)
    · cases hf
  unfold attention
  refine persists_bind _ fun embedDim => persists_bind _ fun heads => ?_
  cases embedDim with
  | none => exact hagree none _ _
  | some dim =>
    dsimp only
    split
    · exact persists_refl _
    · exact hagree (some dim) _ _

end Rule

/-! ## Blocks -/

namespace Block

variable {block : Block} {params : Params} {inputs others : Inputs} {f : Failure}

/-- **A rule that blames one of its inputs** does so on all inputs that extend them. -/
theorem rule_persists (block : Block) (params : Params) (h : inputs.Extends others) :
    Rule.Persists (block.rule params inputs) (block.rule params others) := by
  cases block with
  | input | textInput | board => exact Rule.persists_refl _
  | attention => exact Rule.attention_persists h
  | add => exact Rule.add_persists h
  | concat => exact Rule.concat_persists h
  | activation | dropout | output => exact Rule.single_persists id h rfl
  | flatten => exact Rule.single_persists (Except.map Rule.flatten) h rfl
  | _ => exact Rule.single_persists (· >>= _) h rfl

/-- A rule sees nothing but the shapes at the inputs of its block. -/
theorem rule_congr (block : Block) (params : Params)
    (h : ∀ handle ∈ block.inputs, inputs.all handle.name = others.all handle.name) :
    block.rule params inputs = block.rule params others := by
  have hsingle : inputs.all defaultInput = others.all defaultInput →
      Rule.single inputs = Rule.single others := by
    intro hall
    rw [Rule.single, Rule.single, Inputs.first?, Inputs.first?, hall]
  cases block with
  | input | textInput | board => rfl
  | attention =>
    have hhandles : attention.inputs = Rule.attentionHandles.map (⟨·, false⟩) := rfl
    rw [hhandles, List.forall_mem_map] at h
    have hconnected : Rule.attentionInputs inputs = Rule.attentionInputs others :=
      List.filterMap_congr fun handle hhandle => by
        rw [Inputs.first?, Inputs.first?, h handle hhandle]
    simp only [rule, Rule.attention, hconnected]
  | add => simp only [rule, Rule.add, h _ List.mem_cons_self]
  | concat => simp only [rule, Rule.concat, h _ List.mem_cons_self]
  | _ => simp only [rule, hsingle (h _ List.mem_cons_self)]

/-- No input is missing when all are connected. -/
theorem blamesInput_of_connected
    (hconnected : ∀ handle ∈ block.inputs, inputs.isConnected handle.name = true)
    (hrule : block.rule params inputs = .error f) (hhandle : f.handle.isSome) :
    blamesInput f = true := by
  by_contra hspared
  obtain ⟨name, hmissing⟩ := missingInput_of_not_blamesInput (by simpa using hspared) hhandle
  -- a shape at a handle that the block does not have would change nothing
  have hextra : ∃ others : Inputs, others.isConnected defaultInput = true ∧
      block.rule params others = .error f := by
    by_cases hdeclared : ∃ handle ∈ block.inputs, handle.name = defaultInput
    · obtain ⟨handle, hmem, hname⟩ := hdeclared
      exact ⟨inputs, hname ▸ hconnected handle hmem, hrule⟩
    · refine ⟨inputs.push defaultInput ⟨[]⟩, by simp [Inputs.isConnected, all_push_self], ?_⟩
      rw [← hrule]
      refine block.rule_congr params fun handle hmem => inputs.all_push_of_ne _ fun hname => ?_
      exact hdeclared ⟨handle, hmem, hname.symm⟩
  obtain ⟨others, hothers, hfails⟩ := hextra
  have hfault := block.rule_fault params others f hfails
  obtain ⟨-, hempty⟩ := hfault.all_eq_nil_of_missingInput hmissing
  simp [Inputs.isConnected, hempty] at hothers

/-- A candidate is refused by the rule, with a failure that blames an input. -/
theorem checkCandidate_eq_error_iff : block.checkCandidate params inputs = .error f ↔
    Param.checkSchema block.schema params = .ok () ∧
      block.rule params inputs = .error f ∧ blamesInput f = true := by
  unfold checkCandidate
  cases Param.checkSchema block.schema params with
  | error => simp
  | ok =>
    cases block.rule params inputs with
    | ok => simp
    | error f' =>
      simp only [true_and, Except.error.injEq]
      constructor
      · intro h
        split at h
        · next hblames =>
          obtain rfl := Except.error.inj h
          exact ⟨rfl, hblames⟩
        · cases h
      · rintro ⟨rfl, hblames⟩
        exact if_pos hblames

/-- A candidate that is refused stays refused when more shapes arrive. -/
theorem checkCandidate_persists (h : inputs.Extends others)
    (hrefused : block.checkCandidate params inputs = .error f) :
    ∃ f', block.checkCandidate params others = .error f' ∧
      block.rule params others = .error f' := by
  obtain ⟨hschema, hrule, hblames⟩ := checkCandidate_eq_error_iff.1 hrefused
  obtain ⟨f', hrule', hblames'⟩ := block.rule_persists params h ⟨f, hrule, hblames⟩
  exact ⟨f', checkCandidate_eq_error_iff.2 ⟨hschema, hrule', hblames'⟩, hrule'⟩

/-- **Connecting more inputs never repairs a candidate.** Once its check fails, it fails with
whatever shapes come to it, and so does the output shape. When every input is connected, the check
passes iff there is an output shape or a failure that is attributed to no input. -/
theorem candidate_checks_persist (block : Block) (params : Params) (inputs : Inputs) :
    (∀ f, block.checkCandidate params inputs = .error f → ∀ more : List (String × Shape),
      (∃ f', block.checkCandidate params (inputs.pushAll more) = .error f') ∧
      ∃ f', block.outputShape params (inputs.pushAll more) = .error f') ∧
    ((∀ handle ∈ block.inputs, inputs.isConnected handle.name = true) →
      (block.checkCandidate params inputs = .ok () ↔
        (∃ out, block.outputShape params inputs = .ok out) ∨
          ∃ f, block.outputShape params inputs = .error f ∧ f.handle = none)) := by
  refine ⟨fun f hrefused more => ?_, fun hconnected => ?_⟩
  · obtain ⟨f', hcheck, hrule⟩ :=
      checkCandidate_persists (inputs.extends_pushAll more) hrefused
    refine ⟨⟨f', hcheck⟩, ?_⟩
    cases hout : block.outputShape params (inputs.pushAll more) with
    | error f'' => exact ⟨f'', rfl⟩
    | ok out =>
      obtain ⟨-, -, hok⟩ := outputShape_eq_ok_iff.1 hout
      rw [hrule] at hok
      cases hok
  · cases hschema : Param.checkSchema block.schema params with
    | error e =>
      have hout : block.outputShape params inputs = .error (.ofError e) := by
        rw [outputShape, hschema]
        rfl
      have hcheck : block.checkCandidate params inputs = .ok () := by
        rw [checkCandidate, hschema]
      exact iff_of_true hcheck (Or.inr ⟨_, hout, rfl⟩)
    | ok =>
      rw [outputShape_eq_rule hschema hconnected, checkCandidate_eq_ok_iff, hschema]
      cases hrule : block.rule params inputs with
      | ok out => simp
      | error f =>
        have hspared : blamesInput f = false ↔ f.handle = none := by
          constructor
          · intro hspared
            by_contra hhandle
            have hblames :=
              blamesInput_of_connected hconnected hrule (Option.isSome_iff_ne_none.2 hhandle)
            rw [hspared] at hblames
            cases hblames
          · intro hnone
            simp [blamesInput, hnone]
        simp [hspared]

/-- A key and a value of different widths are refused before there is a query and with one of the
value's width, which moves the blame to the key. A sum of one input is accepted. -/
theorem attention_stays_refused :
    let inputs := (Inputs.none.push "key" ⟨[.known 8]⟩).push "value" ⟨[.known 16]⟩
    let query := [("query", Shape.mk [.known 16])]
    attention.checkCandidate .empty inputs =
      .error (.atHandle "value" (.embeddingDimMismatch 8 16)) ∧
    (∃ f, attention.checkCandidate .empty (inputs.pushAll query) = .error f) ∧
    (∃ f, attention.outputShape .empty (inputs.pushAll query) = .error f) ∧
    ((∃ out, add.outputShape .empty (.entering [⟨[.known 16]⟩]) = .ok out) ∨
      ∃ f, add.outputShape .empty (.entering [⟨[.known 16]⟩]) = .error f ∧ f.handle = none) := by
  intro inputs query
  have hrefused : attention.checkCandidate .empty inputs =
      .error (.atHandle "value" (.embeddingDimMismatch 8 16)) := by decide +kernel
  have hconnected : ∀ handle ∈ add.inputs,
      (Inputs.entering [⟨[.known 16]⟩]).isConnected handle.name = true := by decide +kernel
  obtain ⟨hcheck, hout⟩ := (candidate_checks_persist attention .empty inputs).1 _ hrefused query
  have hagree := (candidate_checks_persist add .empty (.entering [⟨[.known 16]⟩])).2 hconnected
  exact ⟨hrefused, hcheck, hout, hagree.1 (by decide +kernel)⟩

end Block

end ShapeFlow
