import ShapeFlow.Proofs.Precedence

/-!
# Agreement on a width

Attention goes through its inputs with the width that they have to share: the configured one, or
else the first that is known.

* `Rule.widths`: the configured width, then the known trailing dimensions, in order.
* `Rule.agreeOn_eq_ok_iff_widths`: **inputs agree iff none has rank 0 and all these widths are
  equal.**
* `Rule.agreeOn_eq_error_iff`: otherwise the first odd input is blamed, held against the first of
  the widths before it.
* `Block.attention_agrees`: both for the rule, whose parameters conform to the schema.
-/

namespace ShapeFlow

namespace Shape

variable {x : Shape} {n : UInt64}

/-- The trailing dimension, if it is known. -/
def width? (x : Shape) : Option UInt64 :=
  match x.last? with
  | some (.known n) => some n
  | _ => none

theorem width?_eq_some_iff : x.width? = some n ↔ x.last? = some (.known n) := by
  unfold width?
  split
  · next m hlast => simp [hlast]
  · next hother =>
    refine iff_of_false nofun ?_
    exact hother n

theorem last?_eq_none_iff : x.last? = none ↔ x.rank = 0 := by
  rw [last?, List.getLast?_eq_none_iff, rank, List.length_eq_zero_iff]

end Shape

namespace Rule

variable {fixed : Option UInt64} {connected before : List (String × Shape)}
  {entry : String × Shape} {x : Shape} {e e' : ShapeError} {f : Failure}

/-! ## Widths -/

/-- The width that is configured, then the known trailing dimensions in the order of the inputs. -/
def widths (fixed : Option UInt64) (connected : List (String × Shape)) : List UInt64 :=
  fixed.toList ++ connected.filterMap (·.2.width?)

/-- The first of the widths, from which all others are to be told apart. -/
def reference (fixed : Option UInt64) (connected : List (String × Shape)) : Option UInt64 :=
  (widths fixed connected).head?

@[simp] theorem reference_nil (fixed : Option UInt64) : reference fixed [] = fixed := by
  cases fixed <;> rfl

/-- An input takes part by its width, unless one is fixed already. -/
theorem reference_cons (fixed : Option UInt64) (entry : String × Shape)
    (rest : List (String × Shape)) :
    reference fixed (entry :: rest) = reference (fixed.or entry.2.width?) rest := by
  cases fixed with
  | some w => rfl
  | none =>
    rw [Option.none_or, reference, widths, List.filterMap_cons]
    cases entry.2.width? <;> rfl

theorem mem_widths {n : UInt64} : n ∈ widths fixed connected ↔
    fixed = some n ∨ ∃ entry ∈ connected, entry.2.width? = some n := by
  simp only [widths, List.mem_append, Option.mem_toList, List.mem_filterMap]

/-- **Inputs agree** iff none has rank 0 and all widths are equal. -/
theorem agreeOn_eq_ok_iff_widths : agreeOn fixed connected = .ok () ↔
    (∀ entry ∈ connected, 1 ≤ entry.2.rank) ∧
      ∀ a ∈ widths fixed connected, ∀ b ∈ widths fixed connected, a = b := by
  rw [agreeOn_eq_ok_iff]
  constructor
  · rintro ⟨width, hfixed, hall⟩
    have hwidth : ∀ a ∈ widths fixed connected, a = width := by
      intro a ha
      rcases mem_widths.1 ha with ha | ⟨entry, hentry, ha⟩
      · exact hfixed a ha
      · obtain ⟨d, hd, hadmits⟩ := hall entry hentry
        rw [Shape.width?_eq_some_iff, hd, Option.some.injEq] at ha
        rw [ha, Dim.known_admits_iff] at hadmits
        exact (Dim.known.inj hadmits).symm
    refine ⟨fun entry hentry => ?_, fun a ha b hb => (hwidth a ha).trans (hwidth b hb).symm⟩
    obtain ⟨d, hd, -⟩ := hall entry hentry
    rw [Nat.one_le_iff_ne_zero, ne_eq, ← Shape.last?_eq_none_iff, hd]
    nofun
  · rintro ⟨hrank, hequal⟩
    -- the first width is the one that fits all
    have hwidth : ∀ a ∈ widths fixed connected, a = (reference fixed connected).getD 0 := by
      intro a ha
      rw [reference]
      cases hhead : (widths fixed connected).head? with
      | none => rw [List.head?_eq_none_iff.1 hhead] at ha; cases ha
      | some b => exact hequal a ha b (List.mem_of_head? hhead)
    refine ⟨_, fun w hw => hwidth w (mem_widths.2 (Or.inl hw)), fun entry hentry => ?_⟩
    cases hlast : entry.2.last? with
    | none =>
      have hzero := Shape.last?_eq_none_iff.1 hlast
      exact absurd (hrank entry hentry) (by omega)
    | some d =>
      refine ⟨d, rfl, ?_⟩
      cases d with
      | unknown => exact Dim.unknown_admits _
      | known n =>
        have hmem : n ∈ widths fixed connected :=
          mem_widths.2 (Or.inr ⟨entry, hentry, Shape.width?_eq_some_iff.2 hlast⟩)
        have hn := hwidth n hmem
        rw [← hn]

/-- **The order in which inputs are inspected does not matter** to whether they agree. -/
theorem agreeOn_perm {others : List (String × Shape)} (h : others.Perm connected) :
    agreeOn fixed others = .ok () ↔ agreeOn fixed connected = .ok () := by
  rw [agreeOn_eq_ok_iff, agreeOn_eq_ok_iff]
  simp only [h.mem_iff]

/-! ## The input to blame -/

/-- An input is odd, held against the widths before it: it has no trailing dimension, or one that is
known to be another than the first of these. -/
inductive Odd (fixed : Option UInt64) (before : List (String × Shape)) (x : Shape) :
    ShapeError → Prop
  | rank (hrank : x.rank = 0) : Odd fixed before x (.rankMismatch "at least 1" 0)
  | width {expected actual : UInt64} (hexpected : reference fixed before = some expected)
      (hactual : x.width? = some actual) (hne : actual ≠ expected) :
      Odd fixed before x (.embeddingDimMismatch expected actual)

theorem Odd.unique (h : Odd fixed before x e) (h' : Odd fixed before x e') : e = e' := by
  have hnowidth : x.rank = 0 → x.width? = none := by
    intro hrank
    rw [Shape.width?, Shape.last?_eq_none_iff.2 hrank]
  cases h with
  | rank hrank =>
    cases h' with
    | rank => rfl
    | width _ hactual => rw [hnowidth hrank] at hactual; cases hactual
  | width hexpected hactual =>
    cases h' with
    | rank hrank => rw [hnowidth hrank] at hactual; cases hactual
    | width hexpected' hactual' =>
      rw [hexpected] at hexpected'
      rw [hactual] at hactual'
      cases hexpected'
      cases hactual'
      rfl

/-- What stands before an input matters by its first width. -/
theorem odd_cons_iff : Odd fixed (entry :: before) x e ↔
    Odd (fixed.or entry.2.width?) before x e := by
  have href := reference_cons fixed entry before
  constructor
  · rintro (hrank | ⟨hexpected, hactual, hne⟩)
    · exact .rank hrank
    · exact .width (href ▸ hexpected) hactual hne
  · rintro (hrank | ⟨hexpected, hactual, hne⟩)
    · exact .rank hrank
    · exact .width (href.trans hexpected) hactual hne

/-- The first odd input and its position. -/
structure FirstOdd (fixed : Option UInt64) (connected : List (String × Shape)) (i : ℕ)
    (handle : String) (e : ShapeError) : Prop where
  odd : ∃ x, connected[i]? = some (handle, x) ∧ Odd fixed (connected.take i) x e
  earlier : ∀ j < i, ∀ entry, connected[j]? = some entry → ∀ e,
    ¬ Odd fixed (connected.take j) entry.2 e

/-- **One input**: an odd one is blamed, and behind any other the rest is judged with its width. -/
theorem agreeOn_cons_of_odd {handle : String} (rest : List (String × Shape))
    (h : Odd fixed [] x e) :
    agreeOn fixed ((handle, x) :: rest) = .error (.atHandle handle e) := by
  unfold agreeOn
  cases h with
  | rank hrank =>
    rw [trailing, Shape.last?_eq_none_iff.2 hrank, rankMismatch, hrank]
    rfl
  | @width expected actual hexpected hactual hne =>
    rw [reference_nil] at hexpected
    rw [trailing, Shape.width?_eq_some_iff.1 hactual, hexpected]
    exact if_neg hne

theorem agreeOn_cons_of_not_odd {handle : String} (rest : List (String × Shape))
    (h : ∀ e, ¬ Odd fixed [] x e) :
    agreeOn fixed ((handle, x) :: rest) = agreeOn (fixed.or x.width?) rest := by
  rw [agreeOn]
  cases hlast : x.last? with
  | none => exact absurd (.rank (Shape.last?_eq_none_iff.1 hlast)) (h _)
  | some d =>
    rw [trailing, hlast, ok_bind, Shape.width?, hlast]
    cases d with
    | unknown => cases fixed <;> rfl
    | known actual =>
      cases fixed with
      | none => rfl
      | some expected =>
        have heq : actual = expected := by
          by_contra hne
          exact h _ (.width rfl (Shape.width?_eq_some_iff.2 hlast) hne)
        exact if_pos heq

/-- **The first odd input is blamed.** -/
theorem agreeOn_eq_error_iff : agreeOn fixed connected = .error f ↔
    ∃ i handle e, FirstOdd fixed connected i handle e ∧ f = .atHandle handle e := by
  induction connected generalizing fixed with
  | nil =>
    refine iff_of_false nofun ?_
    rintro ⟨i, handle, e, ⟨⟨x, hx, -⟩, -⟩, -⟩
    cases hx
  | cons first rest ih =>
    obtain ⟨name, x⟩ := first
    by_cases hodd : ∃ e, Odd fixed [] x e
    · obtain ⟨e, he⟩ := hodd
      rw [agreeOn_cons_of_odd rest he, Except.error.injEq]
      constructor
      · rintro rfl
        exact ⟨0, name, e, ⟨⟨x, rfl, he⟩, nofun⟩, rfl⟩
      · rintro ⟨i, handle, e', ⟨⟨y, hy, hodd⟩, hearlier⟩, rfl⟩
        cases i with
        | zero =>
          cases hy
          rw [he.unique hodd]
        | succ i => exact absurd he (hearlier 0 i.succ_pos (name, x) rfl e)
    · rw [agreeOn_cons_of_not_odd rest (not_exists.1 hodd), ih]
      -- positions move by one, and the first input has left its width
      constructor
      · rintro ⟨i, handle, e, ⟨⟨y, hy, hodd'⟩, hearlier⟩, rfl⟩
        refine ⟨i + 1, handle, e, ⟨⟨y, hy, odd_cons_iff.2 hodd'⟩, fun j hj entry hentry e he => ?_⟩,
          rfl⟩
        cases j with
        | zero =>
          cases hentry
          exact hodd ⟨e, he⟩
        | succ j => exact hearlier j (Nat.lt_of_succ_lt_succ hj) entry hentry e (odd_cons_iff.1 he)
      · rintro ⟨i, handle, e, ⟨⟨y, hy, hodd'⟩, hearlier⟩, rfl⟩
        cases i with
        | zero =>
          cases hy
          exact absurd ⟨e, hodd'⟩ hodd
        | succ i =>
          refine ⟨i, handle, e, ⟨⟨y, hy, odd_cons_iff.1 hodd'⟩, fun j hj entry hentry e he => ?_⟩,
            rfl⟩
          exact hearlier (j + 1) (Nat.succ_lt_succ hj) entry hentry e (odd_cons_iff.2 he)

/-! ## The rule -/

variable {inputs : Inputs}

/-- The first shape among connected inputs is that of the query, else of the key, else of the
value. -/
theorem head?_attentionInputs : (attentionInputs inputs).head?.map (·.2) =
    (inputs.first? "query").or ((inputs.first? "key").or (inputs.first? "value")) := by
  simp only [attentionInputs, attentionHandles, List.filterMap_cons, List.filterMap_nil]
  cases inputs.first? "query" <;> cases inputs.first? "key" <;> cases inputs.first? "value" <;> rfl

end Rule

namespace Block

/-- **Attention agrees on one width.** With parameters that conform to the schema it succeeds iff
its heads divide the configured width, no connected input has rank 0, and the configured width, if
there is one, and the known trailing dimensions are all equal; then it gives the shape of the first
connected input. Heads that do not divide come first among its failures. Otherwise the first odd
input is blamed, and no order in which the inputs might be inspected makes a difference to
success. -/
theorem attention_agrees {params : Params} (hconforms : Param.Conforms attention.schema params)
    (inputs : Inputs) :
    ∃ width heads : UInt64, (attention.settings params).word "embed_dim" = .ok width ∧
      (attention.settings params).word "num_heads" = .ok heads ∧ 0 < heads ∧
      let fixed := Rule.fixedWidth width
      let connected := Rule.attentionInputs inputs
      (∀ out, attention.rule params inputs = .ok out ↔
        heads.toNat ∣ width.toNat ∧ (∀ entry ∈ connected, 1 ≤ entry.2.rank) ∧
          (∀ a ∈ Rule.widths fixed connected, ∀ b ∈ Rule.widths fixed connected, a = b) ∧
          out = ((inputs.first? "query").or
            ((inputs.first? "key").or (inputs.first? "value"))).getD ⟨[]⟩) ∧
      (¬ heads.toNat ∣ width.toNat → attention.rule params inputs =
        .error (.ofError (.invalidParam "num_heads"
          s!"embed_dim {width.toNat} is not divisible by {heads.toNat} heads"))) ∧
      (heads.toNat ∣ width.toNat → ∀ f, attention.rule params inputs = .error f ↔
        ∃ i handle e, Rule.FirstOdd fixed connected i handle e ∧ f = .atHandle handle e) ∧
      (∀ others, others.Perm connected →
        (Rule.agreeOn fixed others = .ok () ↔ Rule.agreeOn fixed connected = .ok ())) ∧
      ((∀ handle ∈ attention.inputs, inputs.isConnected handle.name = true) →
        attention.outputShape params inputs = attention.rule params inputs) := by
  have hreadings := readings_succeed hconforms
  obtain ⟨fixed, hfixed⟩ : (Reading.constraint "embed_dim").Succeeds _ := hreadings _ (by decide)
  obtain ⟨heads, hheads⟩ : (Reading.word "num_heads").Succeeds _ := hreadings _ (by decide)
  obtain ⟨width, hwidth, -⟩ := bind_eq_ok_iff.1 hfixed
  have hpos : 0 < heads := Settings.word_pos rfl hheads
  refine ⟨width, heads, hwidth, hheads, hpos, fun out => ?_, fun hdvd => ?_, fun hdvd f => ?_,
    fun others hperm => Rule.agreeOn_perm hperm, fun hconnected => ?_⟩
  · by_cases hdvd : heads.toNat ∣ width.toNat
    · rw [rule, Rule.attention_of_dvd hwidth hheads hpos hdvd, bind_eq_ok_iff, and_iff_right hdvd,
        ← and_assoc, ← Rule.agreeOn_eq_ok_iff_widths, Rule.head?_attentionInputs]
      constructor
      · rintro ⟨⟨⟩, hagree, hout⟩
        exact ⟨hagree, (Except.ok.inj hout).symm⟩
      · rintro ⟨hagree, rfl⟩
        exact ⟨(), hagree, rfl⟩
    · rw [rule, Rule.attention_of_not_dvd hwidth hheads hpos hdvd]
      exact iff_of_false (by rintro ⟨⟩) fun h => hdvd h.1
  · exact Rule.attention_of_not_dvd hwidth hheads hpos hdvd
  · rw [rule, Rule.attention_of_dvd hwidth hheads hpos hdvd, bind_eq_error_iff,
      ← Rule.agreeOn_eq_error_iff]
    simp
  · exact outputShape_eq_rule (Param.conforms_iff.1 hconforms) hconnected

/-- A query of unknown width does not keep key and value from being held against each other: the
value is blamed for a width of 16 beside the 8 of the key. -/
theorem attention_agrees_behind_unknown :
    Param.Conforms attention.schema Table.empty ∧
    attention.rule Table.empty
        ⟨[("value", ⟨[.known 16]⟩), ("key", ⟨[.known 8]⟩), ("query", ⟨[.known 5, .unknown]⟩)]⟩ =
      .error (.atHandle "value" (.embeddingDimMismatch 8 16)) := by
  have hconforms : Param.Conforms attention.schema Table.empty := by
    rw [Param.conforms_iff]
    decide +kernel
  obtain ⟨width, heads, hwidth, hheads, -, -, -, hblamed, -⟩ := attention_agrees hconforms
    ⟨[("value", ⟨[.known 16]⟩), ("key", ⟨[.known 8]⟩), ("query", ⟨[.known 5, .unknown]⟩)]⟩
  have hopen : (attention.settings Table.empty).word "embed_dim" = .ok 0 := by decide +kernel
  obtain rfl : 0 = width := Except.ok.inj (hopen.symm.trans hwidth)
  refine ⟨hconforms, (hblamed (Nat.dvd_zero _) _).2 ⟨2, "value", _, ⟨⟨_, rfl, ?_⟩, ?_⟩, rfl⟩⟩
  · exact .width rfl rfl (by decide)
  · intro j hj entry hentry e hodd
    rcases j with _ | _ | j
    · cases hentry
      cases hodd with
      | rank hrank => cases hrank
      | width _ hactual => cases hactual
    · cases hentry
      cases hodd with
      | rank hrank => cases hrank
      | width hexpected => cases hexpected
    · omega

end Block

end ShapeFlow
