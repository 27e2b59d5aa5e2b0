import ShapeFlow.Json.Writer
import ShapeFlow.Json.Decode
import ShapeFlow.Proofs.Outcome
import ShapeFlow.Proofs.Text
import Mathlib.Data.List.Basic
import Mathlib.Tactic.IntervalCases

/-!
# Numbers read back

* `Json.readDigits_eq_ok_iff`: digits are read as far as they go.
* `Json.local_readNumeral`: a numeral is read the same in front of a text that cannot continue it.
* `Json.readNumeral_integer`, `Json.value?_ofInt`: **an integer is read back**.
* `Json.ReadsBack`: a double is read back from its own text. This is no law: the reader rounds in
  steps, and some doubles come back as their neighbours.
* `Json.ReadsBack.exists_numeral`: if it is, the text is a numeral and the double is its value.
-/

namespace ShapeFlow.Json

open Json.Tree

variable {cs rest digits : List Char}

/-- A text does not continue the numeral in front of it. -/
def Ends (rest : List Char) : Prop :=
  ∀ c ∈ rest.head?, c.isDigit = false ∧ c ≠ '.' ∧ c ≠ 'e' ∧ c ≠ 'E'

/-- **Digits are read as far as they go.** -/
theorem readDigits_eq_ok_iff : readDigits cs = .ok (digits, rest) ↔
    cs = digits ++ rest ∧ digits ≠ [] ∧ (∀ c ∈ digits, c.isDigit) ∧
      ∀ c ∈ rest.head?, c.isDigit = false := by
  have hread : readDigits cs = .ok (digits, rest) ↔ cs.takeWhile Char.isDigit ≠ [] ∧
      cs.takeWhile Char.isDigit = digits ∧ cs.dropWhile Char.isDigit = rest := by
    unfold readDigits
    by_cases h : cs.takeWhile Char.isDigit = [] <;> simp [h]
  rw [hread]
  constructor
  · rintro ⟨hne, rfl, rfl⟩
    have hall : (cs.takeWhile Char.isDigit).all Char.isDigit := List.all_takeWhile
    refine ⟨List.takeWhile_append_dropWhile.symm, hne, List.all_eq_true.1 hall, ?_⟩
    intro c hc
    have hstop := List.head?_dropWhile_not Char.isDigit cs
    rw [hc] at hstop
    exact hstop
  · rintro ⟨rfl, hne, hdigits, hrest⟩
    have hstop : rest.takeWhile Char.isDigit = [] ∧ rest.dropWhile Char.isDigit = rest := by
      cases rest with
      | nil => exact ⟨rfl, rfl⟩
      | cons c rest => simp [hrest c rfl]
    rw [List.takeWhile_append_of_pos hdigits, List.dropWhile_append_of_pos hdigits, hstop.1, hstop.2,
      List.append_nil]
    exact ⟨hne, rfl, rfl⟩

/-- A reader of a part of a numeral leaves an end of the text, and gives the same result in front of
a text that cannot continue a numeral. -/
def Local {α : Type} (read : List Char → Except Halt (α × List Char)) : Prop :=
  ∀ ⦃cs a after⦄, read cs = .ok (a, after) →
    after <:+ cs ∧ ∀ rest, Ends rest → read (cs ++ rest) = .ok (a, after ++ rest)

/-- Digits end at the first character that is none. -/
theorem local_readDigits : Local readDigits := by
  intro cs digits after h
  obtain ⟨rfl, hne, hdigits, hafter⟩ := readDigits_eq_ok_iff.1 h
  refine ⟨List.suffix_append .., fun rest hrest => ?_⟩
  refine readDigits_eq_ok_iff.2 ⟨List.append_assoc .., hne, hdigits, ?_⟩
  intro c hc
  cases after with
  | nil => exact (hrest c hc).1
  | cons a after => exact hafter c hc

theorem local_readWhole : Local readWhole := by
  intro cs whole after h
  obtain ⟨⟨digits, tail⟩, hdigits, h⟩ := bind_eq_ok_iff.1 h
  obtain ⟨hsuffix, hstable⟩ := local_readDigits hdigits
  by_cases hzero : digits.head? = some '0' ∧ 1 < digits.length
  · dsimp only at h
    rw [if_pos hzero] at h
    cases h
  · dsimp only at h
    rw [if_neg hzero] at h
    cases h
    refine ⟨hsuffix, fun rest hrest => ?_⟩
    unfold readWhole
    rw [hstable rest hrest, ok_bind]
    exact if_neg hzero

theorem local_readFraction : Local readFraction := by
  intro cs fraction after h
  unfold readFraction at h
  split at h
  · next tail =>
    obtain ⟨hsuffix, hstable⟩ := local_readDigits h
    exact ⟨hsuffix.trans (List.suffix_cons ..), hstable⟩
  · next hpoint =>
    cases h
    refine ⟨List.suffix_rfl, fun rest hrest => ?_⟩
    unfold readFraction
    split
    · next tail hcons =>
      -- a point ahead is either in the part itself or opens what follows
      cases cs with
      | nil =>
        have hrest' : rest = '.' :: tail := hcons
        subst hrest'
        exact absurd rfl (hrest '.' rfl).2.1
      | cons c cs => exact absurd (congrArg (· :: cs) (List.cons.inj hcons).1) (hpoint cs)
    · rfl

theorem readPower_cons (c : Char) (cs : List Char) :
    readPower (c :: cs) = (readDigits (if c = '+' ∨ c = '-' then cs else c :: cs)).map
      (fun p => ((c == '-', p.1), p.2)) := by
  unfold readPower
  split
  next negative tail hsign =>
  have hparts : negative = (c == '-') ∧ tail = if c = '+' ∨ c = '-' then cs else c :: cs := by
    split at hsign
    · next hcons => cases hcons; cases hsign; exact ⟨rfl, rfl⟩
    · next hcons => cases hcons; cases hsign; exact ⟨rfl, rfl⟩
    · next hplus hminus =>
      cases hsign
      have hplus : c ≠ '+' := fun h => hplus cs (congrArg (· :: cs) h)
      have hminus : c ≠ '-' := fun h => hminus cs (congrArg (· :: cs) h)
      simp [hplus, hminus]
  rw [hparts.1, hparts.2]
  cases readDigits (if c = '+' ∨ c = '-' then cs else c :: cs) <;> rfl

theorem local_readPower : Local readPower := by
  intro cs power after h
  cases cs with
  | nil => cases h
  | cons c cs =>
    rw [readPower_cons] at h
    obtain ⟨⟨digits, tail⟩, hdigits, hpower⟩ := map_eq_ok_iff.1 h
    cases hpower
    obtain ⟨hsuffix, hstable⟩ := local_readDigits hdigits
    constructor
    · refine hsuffix.trans ?_
      split
      · exact List.suffix_cons ..
      · exact List.suffix_rfl
    · intro rest hrest
      have hsign : (if c = '+' ∨ c = '-' then cs ++ rest else c :: (cs ++ rest)) =
          (if c = '+' ∨ c = '-' then cs else c :: cs) ++ rest := by
        split <;> rfl
      rw [List.cons_append, readPower_cons, hsign, hstable rest hrest]
      rfl

/-- The end of a numeral behind its fraction: the power, if there is one. -/
def readEnd (negative : Bool) (whole fraction : List Char) :
    List Char → Except Halt (Numeral × List Char)
  | [] => .ok (⟨negative, whole, fraction, none⟩, [])
  | c :: rest =>
    if c = 'e' ∨ c = 'E' then
      (readPower rest).map (fun p => (⟨negative, whole, fraction, some p.1⟩, p.2))
    else .ok (⟨negative, whole, fraction, none⟩, c :: rest)

/-- A numeral behind its sign. -/
def readUnsigned (negative : Bool) (cs : List Char) : Except Halt (Numeral × List Char) := do
  let (whole, cs) ← readWhole cs
  let (fraction, cs) ← readFraction cs
  match cs with
  | c :: rest =>
    if c = 'e' ∨ c = 'E' then do
      let (power, rest) ← readPower rest
      .ok (⟨negative, whole, fraction, some power⟩, rest)
    else .ok (⟨negative, whole, fraction, none⟩, cs)
  | [] => .ok (⟨negative, whole, fraction, none⟩, cs)

theorem readUnsigned_eq (negative : Bool) : readUnsigned negative = fun cs =>
    readWhole cs >>= fun whole =>
      readFraction whole.2 >>= fun fraction => readEnd negative whole.1 fraction.1 fraction.2 := by
  funext cs
  unfold readUnsigned
  congr 1
  funext whole
  dsimp only
  congr 1
  funext fraction
  rcases fraction with ⟨fraction, _ | ⟨c, after⟩⟩
  · rfl
  · dsimp only [readEnd]
    split
    · cases readPower after <;> rfl
    · rfl

theorem readNumeral_cons (c : Char) (cs : List Char) :
    readNumeral (c :: cs) = readUnsigned (c == '-') (if c = '-' then cs else c :: cs) := by
  by_cases hminus : c = '-'
  · subst hminus
    rfl
  · unfold readNumeral
    split
    next negative tail hsign =>
    split at hsign
    · next hcons => exact absurd (List.cons.inj hcons).1 hminus
    · cases hsign
      rw [if_neg hminus, beq_false_of_ne hminus]
      rfl

/-- **Readers in a row are local if each of them is.** -/
theorem Local.bind {α β : Type} {read : List Char → Except Halt (α × List Char)}
    {next : α → List Char → Except Halt (β × List Char)} (hread : Local read)
    (hnext : ∀ a, Local (next a)) : Local (fun cs => read cs >>= fun p => next p.1 p.2) := by
  intro cs b after h
  obtain ⟨⟨a, middle⟩, ha, hb⟩ := bind_eq_ok_iff.1 h
  obtain ⟨hsuffix, hstable⟩ := hread ha
  obtain ⟨hsuffix', hstable'⟩ := hnext a hb
  refine ⟨hsuffix'.trans hsuffix, fun rest hrest => ?_⟩
  dsimp only
  rw [hstable rest hrest, ok_bind]
  exact hstable' rest hrest

theorem local_readEnd (negative : Bool) (whole fraction : List Char) :
    Local (readEnd negative whole fraction) := by
  intro cs n after h
  cases cs with
  | nil =>
    cases h
    refine ⟨List.suffix_rfl, fun rest hrest => ?_⟩
    cases rest with
    | nil => rfl
    | cons c rest => exact if_neg (not_or.2 (hrest c rfl).2.2)
  | cons c cs =>
    by_cases hpower : c = 'e' ∨ c = 'E'
    · rw [readEnd, if_pos hpower] at h
      obtain ⟨⟨power, tail⟩, hread, hn⟩ := map_eq_ok_iff.1 h
      cases hn
      obtain ⟨hsuffix, hstable⟩ := local_readPower hread
      refine ⟨hsuffix.trans (List.suffix_cons ..), fun rest hrest => ?_⟩
      rw [List.cons_append, readEnd, if_pos hpower, hstable rest hrest]
      rfl
    · rw [readEnd, if_neg hpower] at h
      cases h
      exact ⟨List.suffix_rfl, fun rest _ => if_neg hpower⟩

/-- A numeral ends where its last part does. -/
theorem local_readUnsigned (negative : Bool) : Local (readUnsigned negative) := by
  rw [readUnsigned_eq]
  exact local_readWhole.bind fun whole =>
    local_readFraction.bind fun fraction => local_readEnd negative whole fraction

/-- **A numeral is read the same** in front of a text that cannot continue it. -/
theorem local_readNumeral : Local readNumeral := by
  intro cs n after h
  cases cs with
  | nil => cases h
  | cons c cs =>
    rw [readNumeral_cons] at h
    obtain ⟨hsuffix, hstable⟩ := local_readUnsigned _ h
    constructor
    · refine hsuffix.trans ?_
      split
      · exact List.suffix_cons ..
      · exact List.suffix_rfl
    · intro rest hrest
      have hsign : (if c = '-' then cs ++ rest else c :: (cs ++ rest)) =
          (if c = '-' then cs else c :: cs) ++ rest := by
        split <;> rfl
      rw [List.cons_append, readNumeral_cons, hsign]
      exact hstable rest hrest

theorem readDigits_cons {c : Char} {p : List Char × List Char}
    (h : readDigits (c :: cs) = .ok p) : c.isDigit := by
  obtain ⟨hsplit, hne, hdigits, -⟩ := readDigits_eq_ok_iff.1 h
  obtain ⟨d, ds, hcons⟩ := List.exists_cons_of_ne_nil hne
  rw [hcons] at hsplit hdigits
  rw [(List.cons.inj hsplit).1]
  exact hdigits d (List.mem_cons_self ..)

/-- A numeral opens with its sign or with a digit. -/
theorem readNumeral_open {n : Numeral} (h : readNumeral cs = .ok (n, rest)) :
    ∃ c tail, cs = c :: tail ∧ (c = '-' ∨ c.isDigit) := by
  cases cs with
  | nil => cases h
  | cons c tail =>
    refine ⟨c, tail, rfl, ?_⟩
    by_cases hminus : c = '-'
    · exact Or.inl hminus
    · rw [readNumeral_cons, if_neg hminus] at h
      obtain ⟨_, hwhole, -⟩ := bind_eq_ok_iff.1 h
      obtain ⟨_, hdigits, -⟩ := bind_eq_ok_iff.1 hwhole
      exact Or.inr (readDigits_cons hdigits)

theorem isSpace_of_isDigit {c : Char} (h : c.isDigit) : isSpace c = false := by
  by_contra hspace
  simp only [isSpace, Bool.not_eq_false, Bool.or_eq_true, beq_iff_eq] at hspace
  rcases hspace with ((rfl | rfl) | rfl) | rfl <;> exact absurd h (by decide)

/-- No space, quote or bracket opens a numeral. -/
theorem numeral_open {c : Char} (h : c = '-' ∨ c.isDigit) :
    isSpace c = false ∧ c ≠ '"' ∧ c ≠ '[' ∧ c ≠ ']' ∧ c ≠ '\x7b' := by
  rcases h with rfl | h
  · decide
  · refine ⟨isSpace_of_isDigit h, ?_, ?_, ?_, ?_⟩ <;> rintro rfl <;> exact absurd h (by decide)

/-- A value that opens with no bracket is a scalar. -/
theorem readTree_scalar {c : Char} (hspace : isSpace c = false) (harray : c ≠ '[')
    (hobject : c ≠ '\x7b') (fuel : Nat) (cs : List Char) :
    readTree (fuel + 1) (c :: cs) = readScalar (c :: cs) := by
  have hskip : skipSpace (c :: cs) = c :: cs := List.dropWhile_cons_of_neg (by simp [hspace])
  unfold readTree
  rw [hskip]
  split
  · next hcons => exact absurd (List.cons.inj hcons).1 harray
  · next hcons => exact absurd (List.cons.inj hcons).1 hobject
  · rfl

/-- Where a numeral stands, it is the tree. -/
theorem readTree_numeral {n : Numeral} (h : readNumeral cs = .ok (n, rest)) (fuel : Nat) :
    readTree (fuel + 1) cs = (.number n, some rest) := by
  obtain ⟨c, tail, rfl, hc⟩ := readNumeral_open h
  obtain ⟨hspace, hquote, harray, -, hobject⟩ := numeral_open hc
  rw [readTree_scalar hspace harray hobject, readScalar]
  dsimp only
  rw [if_neg hquote, if_pos hc, h]

/-! ### Integers -/

/-- The numeral as which an integer is written. -/
def Numeral.ofInt (n : Int) : Numeral := ⟨decide (n < 0), Nat.toDigits 10 n.natAbs, [], none⟩

theorem toString_toList (n : Int) : (toString n).toList =
    if n < 0 then '-' :: Nat.toDigits 10 n.natAbs else Nat.toDigits 10 n.natAbs := by
  have htext : toString n = n.repr := rfl
  rw [htext, Int.repr_eq_if]
  by_cases h : 0 ≤ n
  · have habs : n.toNat = n.natAbs := by omega
    rw [if_pos h, if_neg (by omega), habs, Nat.toList_repr]
  · have habs : (-n).toNat = n.natAbs := by omega
    rw [if_neg h, if_pos (by omega), habs, String.toList_append, Nat.toList_repr]
    rfl

/-- No positive number begins with a zero. -/
theorem head?_toDigits {n : Nat} (h : 0 < n) : (Nat.toDigits 10 n).head? ≠ some '0' := by
  induction n using Nat.strong_induction_on with
  | _ n ih =>
    rw [Nat.toDigits_eq_if (by decide)]
    split
    · next hlt => interval_cases n <;> decide
    · next hge =>
      have hne : Nat.toDigits 10 (n / 10) ≠ [] := Nat.toDigits_ne_nil
      rw [List.head?_append_of_ne_nil _ hne]
      exact ih (n / 10) (by omega) (by omega)

theorem readWhole_toDigits (n : Nat) : readWhole (Nat.toDigits 10 n) = .ok (Nat.toDigits 10 n, []) := by
  have hdigits : readDigits (Nat.toDigits 10 n) = .ok (Nat.toDigits 10 n, []) :=
    readDigits_eq_ok_iff.2 ⟨(List.append_nil _).symm, Nat.toDigits_ne_nil,
      fun c hc => Nat.isDigit_of_mem_toDigits (by decide) (by decide) hc, by simp⟩
  unfold readWhole
  rw [hdigits, ok_bind]
  refine if_neg ?_
  rintro ⟨hzero, hlong⟩
  rcases Nat.eq_zero_or_pos n with rfl | hpos
  · exact absurd hlong (by decide)
  · exact head?_toDigits hpos hzero

theorem readUnsigned_toDigits (negative : Bool) (n : Nat) :
    readUnsigned negative (Nat.toDigits 10 n) = .ok (⟨negative, Nat.toDigits 10 n, [], none⟩, []) := by
  unfold readUnsigned
  rw [readWhole_toDigits, ok_bind]
  rfl

/-- **An integer is read as its numeral**, whatever follows it. -/
theorem readNumeral_integer (n : Int) (hrest : Ends rest) :
    readNumeral ((toString n).toList ++ rest) = .ok (Numeral.ofInt n, rest) := by
  suffices h : readNumeral (toString n).toList = .ok (Numeral.ofInt n, []) from
    (local_readNumeral h).2 rest hrest
  rw [toString_toList]
  by_cases hneg : n < 0
  · rw [if_pos hneg, readNumeral_cons, if_pos rfl, readUnsigned_toDigits, Numeral.ofInt,
      decide_eq_true hneg]
    rfl
  · obtain ⟨c, tail, hdigits⟩ := List.exists_cons_of_ne_nil
      (Nat.toDigits_ne_nil : Nat.toDigits 10 n.natAbs ≠ [])
    have hdigit : c.isDigit := Nat.isDigit_of_mem_toDigits (by decide : 0 < 10) (by decide)
      (hdigits ▸ List.mem_cons_self .. : c ∈ Nat.toDigits 10 n.natAbs)
    have hminus : c ≠ '-' := by
      rintro rfl
      exact absurd hdigit (by decide)
    rw [if_neg hneg, hdigits, readNumeral_cons, if_neg hminus, ← hdigits, readUnsigned_toDigits,
      beq_false_of_ne hminus, Numeral.ofInt, decide_eq_false hneg]

/-- **An integer of a word's range is the value of its numeral.** -/
theorem value?_ofInt {n : Int} (hlow : -0x8000000000000000 ≤ n) (hhigh : n < UInt64.size) :
    (Numeral.ofInt n).value? = some (.integer n) := by
  have hwhole : Numeral.digitsValue (Nat.toDigits 10 n.natAbs) = n.natAbs :=
    Nat.ofDigitChars_ten_toDigits
  have hsize : UInt64.size = 0x10000000000000000 := rfl
  have hfits : n.natAbs < UInt64.size := by omega
  unfold Numeral.value? Numeral.ofInt
  by_cases hneg : n < 0
  · have hword : 0 < n.natAbs ∧ n.natAbs ≤ 0x8000000000000000 := by omega
    have habs : -(n.natAbs : Int) = n := by omega
    simp [-Nat.cast_natAbs, hwhole, hfits, hneg, hword, habs]
  · have habs : (n.natAbs : Int) = n := by omega
    simp [hwhole, hfits, hneg, habs]

/-- An integer is determined by its numeral. -/
theorem Numeral.ofInt_injective : Function.Injective Numeral.ofInt := by
  intro m n h
  obtain ⟨hsign, hdigits, -, -⟩ := Numeral.mk.inj h
  have habs : m.natAbs = n.natAbs := by
    have hvalue := congrArg (Nat.ofDigitChars 10 · 0) hdigits
    simpa using hvalue
  have hsign : m < 0 ↔ n < 0 := decide_eq_decide.1 hsign
  omega

/-! ### Doubles -/

/-- A double is read back from its own text. -/
def ReadsBack (x : Double) : Prop := Decode.ofText decode (layout.write x) = .ok (.real x)

/-- Whether a double is read back. -/
def readsBack (x : Double) : Bool :=
  match Decode.ofText decode (layout.write x) with
  | .ok (.real y) => y = x
  | _ => false

theorem readsBack_iff {x : Double} : ReadsBack x ↔ readsBack x = true := by
  unfold ReadsBack readsBack
  split
  · next y h => rw [h, Except.ok.injEq, Json.real.injEq, decide_eq_true_eq]
  · next hother => exact iff_of_false (hother x) Bool.false_ne_true

instance (x : Double) : Decidable (ReadsBack x) := decidable_of_iff' _ readsBack_iff

-- its text is `9007199254740991.0`, whose seventeen digits are rounded before the division by ten
example : ¬ ReadsBack (Double.ofInt 9007199254740991) := by decide +kernel

/-- No character of a text is a space of JSON. -/
def Solid (cs : List Char) : Prop := ∀ c ∈ cs, isSpace c = false

instance (cs : List Char) : Decidable (Solid cs) :=
  List.decidableBAll (fun c => isSpace c = false) cs

theorem solid_append {cs ds : List Char} : Solid (cs ++ ds) ↔ Solid cs ∧ Solid ds :=
  List.forall_mem_append

theorem Solid.sublist {cs ds : List Char} (h : Solid ds) (hcs : cs.Sublist ds) : Solid cs :=
  fun c hc => h c (hcs.subset hc)

theorem solid_ite {p : Prop} [Decidable p] {a b : String} (ha : Solid a.toList)
    (hb : Solid b.toList) : Solid (if p then a else b).toList := by
  split
  · exact ha
  · exact hb

theorem solid_toString (n : Nat) : Solid (toString n).toList := by
  intro c hc
  have hdigits : (toString n).toList = Nat.toDigits 10 n := Nat.toList_repr
  rw [hdigits] at hc
  exact isSpace_of_isDigit (Nat.isDigit_of_mem_toDigits (by decide) (by decide) hc)

theorem solid_zeros (n : Nat) : Solid ("".pushn '0' n).toList := by
  rw [Text.pushn_toList]
  intro c hc
  rw [List.eq_of_mem_replicate hc]
  rfl

/-- Positional notation is digits and a point. -/
theorem solid_positionalText {digits : String} (h : Solid digits.toList) (exponent : Int) :
    Solid (Layout.positionalText ".0" digits exponent).toList := by
  unfold Layout.positionalText
  split
  · simp only [String.toList_append, solid_append]
    exact ⟨⟨h, solid_zeros _⟩, by decide⟩
  · have hpadded (n : Nat) : Solid ("".pushn '0' n ++ digits).toList := by
      rw [String.toList_append, solid_append]
      exact ⟨solid_zeros n, h⟩
    simp only [String.toList_append, String.toList_ofList, solid_append] at hpadded ⊢
    refine ⟨⟨Solid.sublist ?_ (List.take_sublist ..), by decide⟩,
      Solid.sublist ?_ (List.drop_sublist ..)⟩
    all_goals exact solid_append.2 (hpadded _)

theorem solid_exponentText {digits : String} (h : Solid digits.toList) (leading : Int) :
    Solid (Layout.exponentText digits leading).toList := by
  unfold Layout.exponentText
  simp only [String.toList_append, solid_append]
  have hrest : Solid ("." ++ String.ofList (digits.toList.drop 1)).toList := by
    simp only [String.toList_append, String.toList_ofList, solid_append]
    exact ⟨by decide, h.sublist (List.drop_sublist ..)⟩
  refine ⟨⟨⟨?_, solid_ite (by decide) hrest⟩, solid_ite (by decide) (by decide)⟩, solid_toString _⟩
  rw [String.toList_ofList]
  exact h.sublist (List.take_sublist ..)

theorem solid_decimalText (d : Decimal) : Solid (layout.decimalText d).toList := by
  unfold Layout.decimalText
  rw [String.toList_append, solid_append]
  have hdigits := solid_toString d.digits
  exact ⟨solid_ite (by decide) (by decide),
    solid_ite (solid_positionalText hdigits _) (solid_exponentText hdigits _)⟩

/-- The text of a double holds no space. -/
theorem solid_write (x : Double) : Solid (layout.write x).toList :=
  have hnull : Solid "null".toList := by decide
  solid_ite (solid_decimalText _) (solid_ite hnull hnull)

theorem decode_eq_real {room : Nat} {tree : Tree} {x : Double}
    (h : decode room tree = .ok (.real x)) :
    ∃ n, tree = .number n ∧ n.value? = some (.real x) := by
  unfold decode at h
  split at h
  case h_3 n =>
    split at h
    · next value hvalue => cases h; exact ⟨n, rfl, hvalue⟩
    · cases h
  case h_7 =>
    obtain ⟨items, -, h⟩ := bind_eq_ok_iff.1 h
    obtain ⟨-, -, h⟩ := bind_eq_ok_iff.1 h
    cases h
  case h_8 =>
    obtain ⟨fields, -, h⟩ := bind_eq_ok_iff.1 h
    obtain ⟨-, -, h⟩ := bind_eq_ok_iff.1 h
    cases h
  case h_4 => split at h <;> cases h
  all_goals cases h

theorem readScalar_eq_number {n : Numeral} {after : Option (List Char)}
    (h : readScalar cs = (.number n, after)) :
    ∃ rest, readNumeral cs = .ok (n, rest) ∧ after = some rest := by
  unfold readScalar at h
  split at h
  · cases h
  · split at h
    · split at h <;> cases h
    split at h
    · split at h
      · next hread => cases h; exact ⟨_, hread, rfl⟩
      · cases h
    -- words and all else are no numbers
    split at h
    · dsimp only at h
      split at h <;> cases h
    split at h
    · dsimp only at h
      split at h <;> cases h
    split at h
    · dsimp only at h
      split at h <;> cases h
    · cases h

theorem readTree_eq_number {fuel : Nat} {n : Numeral} {after : Option (List Char)}
    (h : readTree fuel cs = (.number n, after)) :
    ∃ rest, readNumeral (skipSpace cs) = .ok (n, rest) ∧ after = some rest := by
  cases fuel with
  | zero => cases h
  | succ fuel =>
    unfold readTree at h
    split at h
    · split at h <;> cases h
    · split at h <;> cases h
    · exact readScalar_eq_number h

theorem skipSpace_of_solid (h : Solid cs) : skipSpace cs = cs := by
  cases cs with
  | nil => rfl
  | cons c cs => exact List.dropWhile_cons_of_neg (by simp [h c (List.mem_cons_self ..)])

/-- **A double that is read back** is the value of the numeral that is its text. -/
theorem ReadsBack.exists_numeral {x : Double} (h : ReadsBack x) :
    ∃ n, readNumeral (layout.write x).toList = .ok (n, []) ∧ n.value? = some (.real x) := by
  have hsolid := solid_write x
  rcases hread : Tree.read (layout.write x) with ⟨tree, after⟩
  unfold ReadsBack Decode.ofText at h
  rw [hread] at h
  obtain ⟨value, hvalue, h⟩ := bind_eq_ok_iff.1 h
  obtain ⟨rfl, hrest⟩ : value = .real x ∧ ∃ rest, after = some rest ∧ skipSpace rest = [] := by
    cases after with
    | none => cases h
    | some rest =>
      dsimp only at h
      split at h
      · next hempty =>
        cases h
        exact ⟨rfl, rest, rfl, List.isEmpty_iff.1 hempty⟩
      · cases h
  obtain ⟨n, rfl, hn⟩ := decode_eq_real hvalue
  obtain ⟨rest, hnumeral, hafter⟩ := readTree_eq_number hread
  rw [skipSpace_of_solid hsolid] at hnumeral
  -- only space may be left, but the text has none
  obtain ⟨rest', hrest', hspace⟩ := hrest
  cases hafter.symm.trans hrest'
  have hrest : rest = [] := by
    rw [← hspace, skipSpace_of_solid (hsolid.sublist (local_readNumeral hnumeral).1.sublist)]
  subst hrest
  exact ⟨n, hnumeral, hn⟩

end ShapeFlow.Json
