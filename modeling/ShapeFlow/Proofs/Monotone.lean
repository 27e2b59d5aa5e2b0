import ShapeFlow.Proofs.Merge
import ShapeFlow.Rule.Output

/-!
# Rules are monotone in what is known

* `Rule.agreeOn_eq_ok_iff`: attention succeeds when one width fits all of its inputs.
* `Block.rule_covers`: **a rule that accepts inputs accepts every inputs that leave more open**, and
  its answer leaves more open as well.
-/

namespace ShapeFlow

open List

/-! ## Sums and products -/

namespace Dim

@[simp] theorem unknown_mul? (a : Dim) : unknown.mul? a = some unknown := rfl

@[simp] theorem mul?_unknown (a : Dim) : a.mul? unknown = some unknown := by
  cases a <;> rfl

/-- A sum leaves more open when its terms do. -/
theorem foldl_plus_admits {as bs : List Dim} (h : Forall₂ Admits as bs) {a b : Dim}
    (hab : a.Admits b) : (as.foldl plus a).Admits (bs.foldl plus b) := by
  induction h generalizing a b with
  | nil => exact hab
  | cons hde _ ih => exact ih (hab.plus hde)

/-- Once a factor is unknown, so is the product. -/
theorem foldlM_mul?_unknown (ds : List Dim) : ds.foldlM mul? unknown = some unknown := by
  induction ds with
  | nil => rfl
  | cons d ds ih => rwa [List.foldlM_cons, unknown_mul?]

/-- A product leaves more open when its factors do; beyond a word it is open anyway. -/
theorem foldlM_mul?_admits {as bs : List Dim} (h : Forall₂ Admits as bs) {a b : Dim}
    (hab : a.Admits b) :
    ((as.foldlM mul? a).getD unknown).Admits ((bs.foldlM mul? b).getD unknown) := by
  induction h generalizing a b with
  | nil => exact hab
  | @cons d e as bs hde _ ih =>
    have hopen : a.mul? d = some unknown → (((d :: as).foldlM mul? a).getD unknown).Admits
        (((e :: bs).foldlM mul? b).getD unknown) := by
      intro hmul
      rw [List.foldlM_cons, hmul, Option.bind_eq_bind, Option.bind_some, foldlM_mul?_unknown]
      exact unknown_admits _
    rcases hab with rfl | rfl
    · exact hopen (unknown_mul? d)
    rcases hde with rfl | rfl
    · exact hopen (mul?_unknown a)
    · rw [List.foldlM_cons, List.foldlM_cons]
      cases a.mul? d with
      | none => rfl
      | some c => exact ih (admits_refl c)

end Dim

theorem Shape.Admits.flatten {x y : Shape} (h : x.Admits y) :
    (Rule.flatten x).Admits (Rule.flatten y) :=
  .cons (Dim.foldlM_mul?_admits h (Dim.admits_refl _)) .nil

namespace Rule

variable {x y : Shape} {a b : Dim} {settings : Settings} {handle param : String}

/-! ## Demands -/

theorem trailing_eq_ok_iff : trailing handle x = .ok a ↔ x.last? = some a := by
  unfold trailing
  cases x.last? <;> simp

/-- A trailing dimension stands at the same position in both shapes. -/
theorem trailing_covers (h : x.Admits y) :
    Covers Dim.Admits (trailing handle x) (trailing handle y) := by
  intro b hb
  obtain ⟨a, ha, hab⟩ := h.last? (trailing_eq_ok_iff.1 hb)
  exact ⟨a, trailing_eq_ok_iff.2 ha, hab⟩

/-- An expected size is compared with a known one only, so nothing is refused for being open. -/
theorem expectSize_covers (h : a.Admits b) (expected : UInt64) :
    Covers Eq (expectSize param expected a) (expectSize param expected b) :=
  h.covers rfl

/-- The constraint is read of the parameters, which are the same for both. -/
theorem expectConstraint_covers (h : a.Admits b) :
    Covers Eq (expectConstraint settings param a) (expectConstraint settings param b) := by
  refine covers_bind_same fun size => ?_
  cases size with
  | none => exact covers_refl (fun _ => rfl) _
  | some expected => exact expectSize_covers h expected

theorem expectWithin_covers (h : a.Admits b) (maxLen : UInt64) :
    Covers Eq (expectWithin maxLen a) (expectWithin maxLen b) :=
  h.covers rfl

/-- The count of windows is open when the extent is. -/
theorem convExtent_covers (h : a.Admits b) {axis : String} {kernel stride padding : UInt64} :
    Covers Dim.Admits (convExtent axis a kernel stride padding)
      (convExtent axis b kernel stride padding) := by
  rcases h with rfl | rfl
  · intro d _
    exact ⟨.unknown, rfl, Dim.unknown_admits d⟩
  · exact covers_refl Dim.admits_refl _

/-! ## Rules for a single input -/

theorem linear_covers (h : x.Admits y) :
    Covers Shape.Admits (linear settings x) (linear settings y) := by
  refine covers_bind_same fun inFeatures => covers_bind_same fun outFeatures => ?_
  refine covers_bind (trailing_covers h) fun a b hab => ?_
  refine covers_bind (expectSize_covers hab inFeatures) fun _ _ _ => ?_
  exact covers_ok (h.withLast _)

/-- Ranks are equal, so that the match on the dimensions takes the same branch for both shapes. -/
theorem conv2D_covers (h : x.Admits y) :
    Covers Shape.Admits (conv2D settings x) (conv2D settings y) := by
  obtain ⟨as⟩ := x
  obtain ⟨bs⟩ := y
  rcases h with _ | ⟨hchannels, _ | ⟨hheight, _ | ⟨hwidth, _ | _⟩⟩⟩
  case cons.cons.cons.nil =>
    refine covers_bind (expectConstraint_covers hchannels) fun _ _ _ => ?_
    refine covers_bind_same fun out => covers_bind_same fun kernel => ?_
    refine covers_bind_same fun stride => covers_bind_same fun padding => ?_
    refine covers_bind (convExtent_covers hheight) fun _ _ hheight' => ?_
    refine covers_bind (convExtent_covers hwidth) fun _ _ hwidth' => ?_
    exact covers_ok (.cons (Dim.admits_refl _) (.cons hheight' (.cons hwidth' .nil)))
  all_goals exact covers_error _

theorem lstm_covers (h : x.Admits y) : Covers Shape.Admits (lstm settings x) (lstm settings y) := by
  obtain ⟨as⟩ := x
  obtain ⟨bs⟩ := y
  rcases h with _ | ⟨hfirst, _ | ⟨hsecond, _ | _⟩⟩
  all_goals simp only [lstm, ok_bind]
  case cons.nil =>
    refine covers_bind (expectConstraint_covers hfirst) fun _ _ _ => ?_
    refine covers_bind_same fun hidden => covers_bind_same fun sequences => ?_
    exact covers_ok (.cons (Dim.admits_refl _) .nil)
  case cons.cons.nil =>
    refine covers_bind (expectConstraint_covers hsecond) fun _ _ _ => ?_
    refine covers_bind_same fun hidden => covers_bind_same fun sequences => ?_
    cases sequences with
    | true => exact covers_ok (.cons hfirst (.cons (Dim.admits_refl _) .nil))
    | false => exact covers_ok (.cons (Dim.admits_refl _) .nil)
  all_goals exact covers_error _

theorem layerNorm_covers (h : x.Admits y) :
    Covers Shape.Admits (layerNorm settings x) (layerNorm settings y) := by
  refine covers_bind (trailing_covers h) fun a b hab => ?_
  refine covers_bind (expectConstraint_covers hab) fun _ _ _ => ?_
  exact covers_ok h

theorem batchNorm_covers (h : x.Admits y) :
    Covers Shape.Admits (batchNorm settings x) (batchNorm settings y) := by
  obtain ⟨as⟩ := x
  obtain ⟨bs⟩ := y
  rcases h with _ | ⟨hchannels, hrest⟩
  · exact covers_error _
  · refine covers_bind (expectConstraint_covers hchannels) fun _ _ _ => ?_
    exact covers_ok (.cons hchannels hrest)

/-- An axis depends on the rank alone, and the rank is never open. -/
theorem resolveAxis_covers (h : x.Admits y) (axis : Int) :
    Covers Eq (resolveAxis x axis) (resolveAxis y axis) := by
  intro i hi
  refine ⟨i, resolveAxis_eq_ok_iff.2 ?_, rfl⟩
  rw [Shape.axis?_eq_of_rank_eq h.rank_eq]
  exact resolveAxis_eq_ok_iff.1 hi

theorem softmax_covers (h : x.Admits y) :
    Covers Shape.Admits (softmax settings x) (softmax settings y) := by
  refine covers_bind_same fun axis => ?_
  refine covers_bind (resolveAxis_covers h axis) fun _ _ _ => ?_
  exact covers_ok h

theorem embedding_covers (h : x.Admits y) :
    Covers Shape.Admits (embedding settings x) (embedding settings y) := by
  obtain ⟨as⟩ := x
  obtain ⟨bs⟩ := y
  refine covers_bind_same fun width => ?_
  rcases h with _ | ⟨hsteps, _ | _⟩
  case cons.nil => exact covers_ok (.cons hsteps (.cons (Dim.admits_refl _) .nil))
  all_goals exact covers_error _

/-- The match is on the dimensions from the last one on, so it is their reversal that is compared.
-/
theorem positionalEncoding_covers (h : x.Admits y) :
    Covers Shape.Admits (positionalEncoding settings x) (positionalEncoding settings y) := by
  have hreverse : Forall₂ Dim.Admits x.dims.reverse y.dims.reverse := forall₂_reverse_iff.2 h
  unfold positionalEncoding
  refine covers_bind (trailing_covers h) fun a b hab => ?_
  refine covers_bind (expectConstraint_covers hab) fun _ _ _ => ?_
  generalize x.dims.reverse = as at hreverse ⊢
  generalize y.dims.reverse = bs at hreverse ⊢
  rcases hreverse with _ | ⟨_, _ | ⟨hsteps, _⟩⟩
  case cons.cons =>
    refine covers_bind_same fun maxLen => ?_
    refine covers_bind (expectWithin_covers hsteps maxLen) fun _ _ _ => ?_
    exact covers_ok h
  all_goals exact covers_ok h

theorem positionalEmbedding_covers (h : x.Admits y) :
    Covers Shape.Admits (positionalEmbedding settings x) (positionalEmbedding settings y) := by
  obtain ⟨as⟩ := x
  obtain ⟨bs⟩ := y
  rcases h with _ | ⟨hsteps, _ | ⟨hfeatures, _ | _⟩⟩
  case cons.cons.nil =>
    refine covers_bind (expectConstraint_covers hfeatures) fun _ _ _ => ?_
    refine covers_bind_same fun maxLen => ?_
    refine covers_bind (expectWithin_covers hsteps maxLen) fun _ _ _ => ?_
    exact covers_ok (.cons hsteps (.cons hfeatures .nil))
  all_goals exact covers_error _

/-! ## Rules for several inputs -/

variable {inputs others : Inputs}

theorem single_covers (h : inputs.Admits others) :
    Covers Shape.Admits (single inputs) (single others) := by
  unfold single
  rcases h.first? Block.defaultInput with ⟨hx, hy⟩ | ⟨x, y, hx, hy, hxy⟩
  · rw [hx, hy]
    exact covers_error _
  · rw [hx, hy]
    exact covers_ok hxy

theorem ne_nil_of_forall₂ {shapes others : List Shape} (h : Forall₂ Shape.Admits shapes others)
    (hne : others ≠ []) : shapes ≠ [] := by
  rintro rfl
  exact hne (forall₂_nil_left_iff.1 h)

/-- The answer to the inputs that know more is admitted by those that leave more open, so these can
be joined too, and their join admits the answer. -/
theorem add_covers (h : inputs.Admits others) :
    Covers Shape.Admits (add inputs) (add others) := by
  intro out' hout'
  rw [add_eq_ok_iff] at hout'
  have hall := h.all Block.defaultInput
  have hbelow : ∀ s ∈ inputs.all Block.defaultInput, s.Admits out' :=
    Shape.forall_admits_of_forall₂ hall fun t ht => hout'.admits ht
  obtain ⟨out, hout⟩ := exists_joins (ne_nil_of_forall₂ hall hout'.ne_nil) hbelow
  exact ⟨out, add_eq_ok_iff.2 hout, (hout out').2 hbelow⟩

/-- Outside of the axis a concatenation joins its inputs, and along the axis it adds them up; both
leave more open when the inputs do. -/
theorem concat_covers (h : inputs.Admits others) :
    Covers Shape.Admits (concat settings inputs) (concat settings others) := by
  intro out' hout'
  obtain ⟨wanted, axis, hwanted, haxis, hlays⟩ := concat_eq_ok_iff.1 hout'
  have hall := h.all Block.defaultInput
  have hopened : Forall₂ Shape.Admits ((inputs.all Block.defaultInput).map (Shape.opened axis))
      ((others.all Block.defaultInput).map (Shape.opened axis)) := by
    rw [forall₂_map_left_iff, forall₂_map_right_iff]
    exact hall.imp fun _ _ hst => ((Shape.admits_iff_opened axis).1 hst).1
  have hentries : Forall₂ Dim.Admits ((inputs.all Block.defaultInput).map (Shape.entry axis))
      ((others.all Block.defaultInput).map (Shape.entry axis)) := by
    rw [forall₂_map_left_iff, forall₂_map_right_iff]
    exact hall.imp fun _ _ hst => ((Shape.admits_iff_opened axis).1 hst).2
  have hbelow := Shape.forall_admits_of_forall₂ hopened fun t ht => hlays.opened.admits ht
  obtain ⟨out, hout⟩ :=
    exists_lays (ne_nil_of_forall₂ hall hlays.ne_nil) (List.forall_mem_map.1 hbelow)
  have hadmits : out.Admits out' := by
    refine (Shape.admits_iff_opened axis).2 ⟨(hout.opened _).2 hbelow, ?_⟩
    rw [hout.entry, hlays.entry]
    exact Dim.foldl_plus_admits hentries (Dim.admits_refl _)
  refine ⟨out, concat_eq_ok_iff.2 ⟨wanted, axis, hwanted, fun s hs => ?_, hout⟩, hadmits⟩
  -- every input has the rank of the output, and so the axis
  obtain ⟨t, ht⟩ := List.exists_mem_of_ne_nil _ hlays.ne_nil
  have hrank : s.rank = t.rank :=
    (hout.rank_eq hs).trans (hadmits.rank_eq.trans (hlays.rank_eq ht).symm)
  rw [Shape.axis?_eq_of_rank_eq hrank, haxis t ht]

/-! ### Attention -/

/-- **Attention agrees** if one width fits the dimension fixed so far and all trailing ones. -/
theorem agreeOn_eq_ok_iff {fixed : Option UInt64} {connected : List (String × Shape)} :
    agreeOn fixed connected = .ok () ↔ ∃ width, (∀ w, fixed = some w → w = width) ∧
      ∀ entry ∈ connected, ∃ d, entry.2.last? = some d ∧ d.Admits (.known width) := by
  induction connected generalizing fixed with
  | nil =>
    simp only [agreeOn, List.not_mem_nil, false_implies, implies_true, and_true, true_iff]
    refine ⟨fixed.getD 0, ?_⟩
    rintro w rfl
    rfl
  | cons entry rest ih =>
    obtain ⟨handle, shape⟩ := entry
    rw [agreeOn]
    cases hlast : shape.last? with
    | none => simp [trailing, hlast]
    | some d =>
      simp only [trailing, hlast, ok_bind, List.forall_mem_cons, Option.some.injEq, exists_eq_left']
      cases d with
      | unknown => cases fixed <;> simp [ih, Dim.unknown_admits]
      | known actual =>
        cases fixed with
        | none => simp [ih, eq_comm]
        | some expected =>
          by_cases heq : actual = expected
          · simp [ih, heq]
          · have hne : ∀ width, expected = width → ¬ width = actual := by
              rintro _ rfl h
              exact heq h.symm
            simp [heq, hne]

/-- The connected inputs of attention are the same in either, with shapes that admit each other. -/
theorem attentionInputs_admits (h : inputs.Admits others) :
    Forall₂ (fun a b => a.1 = b.1 ∧ a.2.Admits b.2) (attentionInputs inputs)
      (attentionInputs others) := by
  unfold attentionInputs
  generalize attentionHandles = handles
  induction handles with
  | nil => exact .nil
  | cons handle rest ih =>
    rcases h.first? handle with ⟨hx, hy⟩ | ⟨x, y, hx, hy, hxy⟩
    · simpa only [List.filterMap_cons, hx, hy, Option.map_none] using ih
    · simpa only [List.filterMap_cons, hx, hy, Option.map_some] using .cons ⟨rfl, hxy⟩ ih

/-- A width that fits known dimensions fits open ones. -/
theorem agreeOn_covers {fixed : Option UInt64} {connected connected' : List (String × Shape)}
    (h : Forall₂ (fun a b => a.1 = b.1 ∧ a.2.Admits b.2) connected connected') :
    Covers Eq (agreeOn fixed connected) (agreeOn fixed connected') := by
  rintro ⟨⟩ hok
  obtain ⟨width, hfixed, hall⟩ := agreeOn_eq_ok_iff.1 hok
  refine ⟨(), agreeOn_eq_ok_iff.2 ⟨width, hfixed, ?_⟩, rfl⟩
  clear hok
  induction h with
  | nil => exact hall
  | cons hab _ ih =>
    rw [List.forall_mem_cons] at hall ⊢
    obtain ⟨⟨d, hd, hdw⟩, hall⟩ := hall
    obtain ⟨a, ha, had⟩ := hab.2.last? hd
    exact ⟨⟨a, ha, had.trans hdw⟩, ih hall⟩

/-- The answer of attention is its first input, once the inputs agree on a width. -/
theorem attention_covers (h : inputs.Admits others) :
    Covers Shape.Admits (attention settings inputs) (attention settings others) := by
  have hconnected := attentionInputs_admits h
  have hhead : Shape.Admits (((attentionInputs inputs).head?.map (·.2)).getD ⟨[]⟩)
      (((attentionInputs others).head?.map (·.2)).getD ⟨[]⟩) := by
    generalize attentionInputs inputs = connected at hconnected ⊢
    generalize attentionInputs others = connected' at hconnected ⊢
    cases hconnected with
    | nil => exact Shape.admits_refl _
    | cons hab _ => exact hab.2
  have hagree : ∀ fixed, Covers Shape.Admits
      (do
        agreeOn fixed (attentionInputs inputs)
        return ((attentionInputs inputs).head?.map (·.2)).getD ⟨[]⟩)
      (do
        agreeOn fixed (attentionInputs others)
        return ((attentionInputs others).head?.map (·.2)).getD ⟨[]⟩) := by
    intro fixed
    exact covers_bind (agreeOn_covers hconnected) fun _ _ _ => covers_ok hhead
  unfold attention
  refine covers_bind_same fun embedDim => covers_bind_same fun heads => ?_
  cases embedDim with
  | none => exact hagree none
  | some dim =>
    dsimp only
    split
    · exact covers_error _
    · exact hagree (some dim)

end Rule

/-! ## All rules -/

variable {inputs others : Inputs}

/-- **A rule that accepts inputs accepts every inputs that leave more open**, and its answer leaves
more open as well. -/
theorem Block.rule_covers (block : Block) (params : Params) (h : inputs.Admits others) :
    Covers Shape.Admits (block.rule params inputs) (block.rule params others) := by
  have hsingle := Rule.single_covers h
  cases block with
  | input => exact covers_refl Shape.admits_refl _
  | textInput => exact covers_refl Shape.admits_refl _
  | linear => exact covers_bind hsingle fun _ _ => Rule.linear_covers
  | conv2D => exact covers_bind hsingle fun _ _ => Rule.conv2D_covers
  | lstm => exact covers_bind hsingle fun _ _ => Rule.lstm_covers
  | attention => exact Rule.attention_covers h
  | layerNorm => exact covers_bind hsingle fun _ _ => Rule.layerNorm_covers
  | batchNorm => exact covers_bind hsingle fun _ _ => Rule.batchNorm_covers
  | softmax => exact covers_bind hsingle fun _ _ => Rule.softmax_covers
  | activation => exact hsingle
  | dropout => exact hsingle
  | output => exact hsingle
  | flatten => exact covers_map hsingle fun _ _ => Shape.Admits.flatten
  | embedding => exact covers_bind hsingle fun _ _ => Rule.embedding_covers
  | textEmbedding => exact covers_bind hsingle fun _ _ => Rule.embedding_covers
  | add => exact Rule.add_covers h
  | concat => exact Rule.concat_covers h
  | positionalEncoding => exact covers_bind hsingle fun _ _ => Rule.positionalEncoding_covers
  | positionalEmbedding => exact covers_bind hsingle fun _ _ => Rule.positionalEmbedding_covers
  | board => exact covers_refl Shape.admits_refl _

end ShapeFlow
