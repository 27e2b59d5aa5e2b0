import ShapeFlow.Flow.Proposal
import ShapeFlow.Proofs.Trimming

/-!
# Proposals as text

* `Proposal.Spellable`: what names a proposal can have that is written as text.
* `Proposal.Spells`: the texts of a proposal, with blanks around names and without default handles.
* `Proposal.ofText_eq_ok_iff`: **a text is read as the proposal that it spells**, and as nothing
  else.
* `Proposal.spellings_are_read`: with the texts that are refused.
-/

namespace ShapeFlow.Proposal

open Text

variable {c : Char} {cs front back side left right : List Char} {node handle default : String}
  {p : Proposal} {text : String}

/-! ## The first of several separators -/

theorem cutAt?_of_not_mem (h : c ∉ cs) : cutAt? c cs = none := by
  induction cs with
  | nil => rfl
  | cons d cs ih =>
    rw [List.mem_cons, not_or] at h
    rw [cutAt?, if_neg (Ne.symm h.1), ih h.2]
    rfl

/-- **A text is cut at the first occurrence of a character.** -/
theorem cutAt?_append (h : c ∉ front) : cutAt? c (front ++ c :: back) = some (front, back) := by
  induction front with
  | nil => rw [List.nil_append, cutAt?, if_pos rfl]
  | cons d front ih =>
    rw [List.mem_cons, not_or] at h
    rw [List.cons_append, cutAt?, if_neg (Ne.symm h.1), ih h.2]
    rfl

/-! ## One side -/

/-- A name that can be told from the blanks around it. -/
structure IsName (name : String) : Prop where
  nonempty : name.toList ≠ []
  trimmed : Trimmed name.toList

theorem isName_of_ends {name : String} {first last : Char} (hfirst : name.toList.head? = some first)
    (hlast : name.toList.getLast? = some last) (hfront : isBlank first = false)
    (hback : isBlank last = false) : IsName name where
  nonempty := by
    intro h
    rw [h] at hfirst
    cases hfirst
  trimmed :=
    { front := by
        intro c hc
        rwa [← Option.some.inj (hfirst.symm.trans hc)]
      back := by
        intro c hc
        rwa [← Option.some.inj (hlast.symm.trans hc)] }

/-- The spellings of a node and a handle: the handle stands behind a point, or is the default one
and left out. -/
inductive Side (default : String) : List Char → String → String → Prop
  | short {side : List Char} {node : String} :
      Padded side node.toList → Side default side node default
  | full {front back : List Char} {node handle : String} :
      Padded front node.toList → Padded back handle.toList →
        Side default (front ++ '.' :: back) node handle

/-- The name in a piece of a text is what trimming leaves of it. -/
theorem isName_iff {name : String} :
    IsName name ∧ Padded cs name.toList ↔ name.toList ≠ [] ∧ trimChars cs = name.toList := by
  rw [trimChars_eq_iff]
  constructor
  · rintro ⟨⟨hne, htrimmed⟩, hpadded⟩
    exact ⟨hne, hpadded, htrimmed⟩
  · rintro ⟨hne, hpadded, htrimmed⟩
    exact ⟨⟨hne, htrimmed⟩, hpadded⟩

/-- The names in two pieces of a text, if there is one in both. -/
def names? (front back : List Char) : Option (String × String) :=
  if (trimChars front).isEmpty || (trimChars back).isEmpty then none
  else some (String.ofList (trimChars front), String.ofList (trimChars back))

theorem names?_eq_some_iff :
    names? front back = some (node, handle) ↔
      (IsName node ∧ Padded front node.toList) ∧ IsName handle ∧ Padded back handle.toList := by
  rw [isName_iff, isName_iff, names?]
  split
  · next h =>
    rw [Bool.or_eq_true, List.isEmpty_iff, List.isEmpty_iff] at h
    simp only [reduceCtorEq, false_iff]
    rintro ⟨⟨hnode, hfront⟩, hhandle, hback⟩
    rw [hfront, hback] at h
    exact h.elim hnode hhandle
  · next h =>
    rw [Bool.or_eq_true, not_or, List.isEmpty_iff, List.isEmpty_iff] at h
    constructor
    · intro heq
      obtain ⟨rfl, rfl⟩ := Prod.mk.inj (Option.some.inj heq)
      simp [h.1, h.2]
    · rintro ⟨⟨-, hfront⟩, -, hback⟩
      rw [hfront, hback, String.ofList_toList, String.ofList_toList]

theorem endpoint?_short (h : '.' ∉ side) (default : String) :
    endpoint? side default = names? side default.toList := by
  rw [endpoint?, cutAt?_of_not_mem h]
  rfl

theorem endpoint?_full (h : '.' ∉ front) (back : List Char) (default : String) :
    endpoint? (front ++ '.' :: back) default = names? front back := by
  rw [endpoint?, cutAt?_append h]
  rfl

/-- The blanks around a side are taken with those around its names. -/
theorem endpoint?_trimChars (side : List Char) (default : String) :
    endpoint? (trimChars side) default = endpoint? side default := by
  obtain ⟨before, after, hbefore, hafter, hside⟩ := padded_trimChars side
  have hpoint : isBlank '.' = false := by decide
  by_cases h : '.' ∈ trimChars side
  · obtain ⟨front, back, htrim, hfront⟩ := List.eq_append_cons_of_mem h
    have hsplit : side = (before ++ front) ++ '.' :: (back ++ after) := by
      rw [hside, htrim]
      simp
    have hbefore' : '.' ∉ before ++ front := by simp [hbefore.not_mem hpoint, hfront]
    have hnode : trimChars (before ++ front) = trimChars front := by
      simpa using trimChars_gaps hbefore (List.forall_mem_nil _) front
    have hhandle : trimChars (back ++ after) = trimChars back := by
      simpa using trimChars_gaps (List.forall_mem_nil _) hafter back
    rw [htrim, endpoint?_full hfront, hsplit, endpoint?_full hbefore', names?, names?, hnode,
      hhandle]
  · have hmem : '.' ∉ side := fun hin => h (((padded_trimChars side).mem_iff hpoint).1 hin)
    rw [endpoint?_short h, endpoint?_short hmem, names?, names?, trimChars_trimChars]

/-- **A side is read as the node and the handle that it spells.** The node is what stands in front
of the first point. -/
theorem endpoint?_eq_some_iff (hdefault : IsName default) :
    endpoint? side default = some (node, handle) ↔
      IsName node ∧ IsName handle ∧ '.' ∉ node.toList ∧ Side default side node handle := by
  have hpoint : isBlank '.' = false := by decide
  constructor
  · intro h
    by_cases hmem : '.' ∈ side
    · obtain ⟨front, back, rfl, hfront⟩ := List.eq_append_cons_of_mem hmem
      rw [endpoint?_full hfront, names?_eq_some_iff] at h
      obtain ⟨⟨hnode, hnodeAt⟩, hhandle, hhandleAt⟩ := h
      exact ⟨hnode, hhandle, fun hin => hfront ((hnodeAt.mem_iff hpoint).2 hin),
        .full hnodeAt hhandleAt⟩
    · rw [endpoint?_short hmem, names?_eq_some_iff] at h
      obtain ⟨⟨hnode, hnodeAt⟩, hhandle, hhandleAt⟩ := h
      -- A default handle without blanks is found as it is.
      obtain rfl : default = handle := by
        apply String.toList_injective
        rw [← trimChars_padded hhandleAt hhandle.trimmed]
        exact (trimChars_padded (padded_self _) hdefault.trimmed).symm
      exact ⟨hnode, hhandle, fun hin => hmem ((hnodeAt.mem_iff hpoint).2 hin), .short hnodeAt⟩
  · rintro ⟨hnode, hhandle, hfree, hside⟩
    cases hside with
    | short hnodeAt =>
      have hmem : '.' ∉ side := fun hin => hfree ((hnodeAt.mem_iff hpoint).1 hin)
      rw [endpoint?_short hmem, names?_eq_some_iff]
      exact ⟨⟨hnode, hnodeAt⟩, hdefault, padded_self _⟩
    | @full front back _ _ hnodeAt hhandleAt =>
      have hmem : '.' ∉ front := fun hin => hfree ((hnodeAt.mem_iff hpoint).1 hin)
      rw [endpoint?_full hmem, names?_eq_some_iff]
      exact ⟨⟨hnode, hnodeAt⟩, hhandle, hhandleAt⟩

/-! ## Both sides -/

/-- What names a proposal can have that is written as text: none of them is taken for another one,
for a separator or for a blank. -/
structure Spellable (p : Proposal) : Prop where
  source : IsName p.source
  sourceHandle : IsName p.sourceHandle
  target : IsName p.target
  targetHandle : IsName p.targetHandle
  source_point : '.' ∉ p.source.toList
  source_equals : '=' ∉ p.source.toList
  sourceHandle_equals : '=' ∉ p.sourceHandle.toList
  target_point : '.' ∉ p.target.toList

/-- The texts of a proposal: an equals sign between two sides. Blanks may stand around every name,
and a default handle may be left out. -/
def Spells (text : String) (p : Proposal) : Prop :=
  ∃ left right, text.toList = left ++ '=' :: right ∧
    Side Block.defaultOutput left p.source p.sourceHandle ∧
    Side Block.defaultInput right p.target p.targetHandle

/-- The text of a proposal with both handles and without blanks. -/
def spelling (p : Proposal) : String :=
  p.source ++ "." ++ p.sourceHandle ++ "=" ++ p.target ++ "." ++ p.targetHandle

theorem spells_spelling (p : Proposal) : Spells p.spelling p := by
  refine ⟨p.source.toList ++ '.' :: p.sourceHandle.toList,
    p.target.toList ++ '.' :: p.targetHandle.toList, ?_, .full (padded_self _) (padded_self _),
    .full (padded_self _) (padded_self _)⟩
  simp [spelling]

/-- No equals sign stands on a side iff there is none in its names. -/
theorem Side.equals_iff (h : Side default side node handle) (hdefault : '=' ∉ default.toList) :
    '=' ∉ side ↔ '=' ∉ node.toList ∧ '=' ∉ handle.toList := by
  have hequals : isBlank '=' = false := by decide
  cases h with
  | short hnode => simp [hnode.mem_iff hequals, hdefault]
  | full hnode hhandle => simp [hnode.mem_iff hequals, hhandle.mem_iff hequals]

theorem isName_defaultOutput : IsName Block.defaultOutput :=
  isName_of_ends (by decide : _ = some 'o') (by decide : _ = some 't') (by decide) (by decide)

theorem isName_defaultInput : IsName Block.defaultInput :=
  isName_of_ends (by decide : _ = some 'i') (by decide : _ = some 'n') (by decide) (by decide)

/-- A text is read side by side. -/
theorem ofText?_append (left right : List Char) (h : text.toList = left ++ '=' :: right)
    (hleft : '=' ∉ left) :
    ofText? text = some p ↔
      endpoint? left Block.defaultOutput = some (p.source, p.sourceHandle) ∧
        endpoint? right Block.defaultInput = some (p.target, p.targetHandle) := by
  obtain ⟨source, sourceHandle, target, targetHandle⟩ := p
  rw [ofText?, h, cutAt?_append hleft]
  simp only [Option.bind_eq_bind, Option.bind_some, endpoint?_trimChars]
  cases endpoint? left Block.defaultOutput <;> cases endpoint? right Block.defaultInput <;>
    simp [Prod.ext_iff, and_assoc]

theorem ofText?_of_not_mem (h : '=' ∉ text.toList) : ofText? text = none := by
  rw [ofText?, cutAt?_of_not_mem h]
  rfl

/-- **A text is read as the proposal that it spells**, and as nothing else. -/
theorem ofText?_eq_some_iff : ofText? text = some p ↔ p.Spellable ∧ Spells text p := by
  have hout : '=' ∉ Block.defaultOutput.toList := by decide
  constructor
  · intro h
    by_cases hmem : '=' ∈ text.toList
    · obtain ⟨left, right, htext, hleft⟩ := List.eq_append_cons_of_mem hmem
      rw [ofText?_append _ _ htext hleft, endpoint?_eq_some_iff isName_defaultOutput,
        endpoint?_eq_some_iff isName_defaultInput] at h
      obtain ⟨⟨hsource, hsourceHandle, hsourcePoint, hleftSide⟩,
        htarget, htargetHandle, htargetPoint, hrightSide⟩ := h
      obtain ⟨hsourceEquals, hhandleEquals⟩ := (hleftSide.equals_iff hout).1 hleft
      exact ⟨⟨hsource, hsourceHandle, htarget, htargetHandle, hsourcePoint, hsourceEquals,
        hhandleEquals, htargetPoint⟩, left, right, htext, hleftSide, hrightSide⟩
    · rw [ofText?_of_not_mem hmem] at h
      cases h
  · rintro ⟨hp, left, right, htext, hleftSide, hrightSide⟩
    -- No equals sign stands on the left, so the one between the sides is the first.
    have hleft := (hleftSide.equals_iff hout).2 ⟨hp.source_equals, hp.sourceHandle_equals⟩
    rw [ofText?_append _ _ htext hleft, endpoint?_eq_some_iff isName_defaultOutput,
      endpoint?_eq_some_iff isName_defaultInput]
    exact ⟨⟨hp.source, hp.sourceHandle, hp.source_point, hleftSide⟩,
      hp.target, hp.targetHandle, hp.target_point, hrightSide⟩

theorem ofText_eq_ok : ofText text = .ok p ↔ ofText? text = some p := by
  rw [ofText]
  cases ofText? text <;> simp

theorem ofText_eq_ok_iff : ofText text = .ok p ↔ p.Spellable ∧ Spells text p := by
  rw [ofText_eq_ok, ofText?_eq_some_iff]

/-- **Any other text is refused**, and is named in the refusal. -/
theorem ofText_eq_error_iff {m : Misspelling} :
    ofText text = .error m ↔ m.text = text ∧ ∀ p, ¬ (p.Spellable ∧ Spells text p) := by
  simp only [← ofText?_eq_some_iff]
  rw [ofText]
  obtain ⟨found⟩ := m
  cases ofText? text <;> simp [eq_comm]

/-- **A default output may be left out** or written. -/
theorem ofText?_defaultOutput {left right : String} (hequals : '=' ∉ left.toList)
    (hpoint : '.' ∉ left.toList) :
    ofText? (left ++ "." ++ Block.defaultOutput ++ "=" ++ right) = some p ↔
      ofText? (left ++ "=" ++ right) = some p := by
  have hlong : '=' ∉ left.toList ++ '.' :: Block.defaultOutput.toList := by
    simp [hequals, Block.defaultOutput]
  rw [ofText?_append _ right.toList (by simp) hlong,
    ofText?_append left.toList right.toList (by simp) hequals, endpoint?_full hpoint,
    endpoint?_short hpoint]

/-- **A default input may be left out** or written. -/
theorem ofText?_defaultInput {left right : String} (hequals : '=' ∉ left.toList)
    (hpoint : '.' ∉ right.toList) :
    ofText? (left ++ "=" ++ right ++ "." ++ Block.defaultInput) = some p ↔
      ofText? (left ++ "=" ++ right) = some p := by
  rw [ofText?_append left.toList (right.toList ++ '.' :: Block.defaultInput.toList) (by simp)
    hequals, ofText?_append left.toList right.toList (by simp) hequals, endpoint?_full hpoint,
    endpoint?_short hpoint]

/-- **Proposals are read as they are spelled.** A text is read as a proposal iff the names of the
proposal can be told apart and the text spells them, with any blanks around each of them. So a
proposal that is read is written with both handles and read again; a default handle may be left out
or written; and every other text is refused by itself. -/
theorem spellings_are_read :
    (∀ text p, ofText text = .ok p ↔ p.Spellable ∧ Spells text p) ∧
    (∀ p : Proposal, p.Spellable → ofText p.spelling = .ok p) ∧
    (∀ text p, ofText text = .ok p → ofText p.spelling = .ok p) ∧
    (∀ left right : String, '=' ∉ left.toList → '.' ∉ left.toList → ∀ p,
      ofText (left ++ "." ++ Block.defaultOutput ++ "=" ++ right) = .ok p ↔
        ofText (left ++ "=" ++ right) = .ok p) ∧
    (∀ left right : String, '=' ∉ left.toList → '.' ∉ right.toList → ∀ p,
      ofText (left ++ "=" ++ right ++ "." ++ Block.defaultInput) = .ok p ↔
        ofText (left ++ "=" ++ right) = .ok p) ∧
    ∀ text m, ofText text = .error m ↔
      m.text = text ∧ ∀ p : Proposal, ¬ (p.Spellable ∧ Spells text p) := by
  have hspelling : ∀ p : Proposal, p.Spellable → ofText p.spelling = .ok p := fun p hp =>
    ofText_eq_ok_iff.2 ⟨hp, p.spells_spelling⟩
  refine ⟨fun text p => ofText_eq_ok_iff, hspelling, fun text p h => ?_, ?_, ?_,
    fun text m => ofText_eq_error_iff⟩
  · exact hspelling p (ofText_eq_ok_iff.1 h).1
  · intro left right hequals hpoint p
    rw [ofText_eq_ok, ofText_eq_ok, ofText?_defaultOutput hequals hpoint]
  · intro left right hequals hpoint p
    rw [ofText_eq_ok, ofText_eq_ok, ofText?_defaultInput hequals hpoint]

/-- The first equals sign and the first point of a side separate, later ones belong to names. -/
theorem spellings_are_read_dotted :
    ofText " a . b.c = d=e " = .ok ⟨"a", "b.c", "d=e", "in"⟩ ∧
    ofText "a.b.c=d=e.in" = .ok ⟨"a", "b.c", "d=e", "in"⟩ ∧
    ofText " a . b.c = d=e .in" = .ok ⟨"a", "b.c", "d=e", "in"⟩ := by
  have hread : ofText " a . b.c = d=e " = .ok ⟨"a", "b.c", "d=e", "in"⟩ := by decide
  obtain ⟨-, -, hagain, -, hinput, -⟩ := spellings_are_read
  exact ⟨hread, hagain _ _ hread, (hinput " a . b.c " " d=e " (by decide) (by decide) _).2 hread⟩

end ShapeFlow.Proposal
