import ShapeFlow.Sketch.Token
import Mathlib.Data.List.Basic

/-!
# The rules of tokens

A rule says which characters are skipped or spell a token, as a regular expression does.

* `Sketch.Matches`: the rules.
* `Sketch.isUnsigned_scanNumber`, `Sketch.length_le_scanNumber`: the number at the head of a text
  matches its rule, and no longer one does.
* `Sketch.isBody_take`, `Sketch.bodyLength_append`: a quoted text ends at its first closing quote.
-/

namespace ShapeFlow.Sketch

/-- `[0-9]+` -/
def IsDigits (ds : List Char) : Prop := ds ≠ [] ∧ ∀ d ∈ ds, d.isDigit = true

/-- `(\.[0-9]+)?`, and the digits. -/
inductive IsFraction : List Char → List Char → Prop
  | none : IsFraction [] []
  | point {ds : List Char} : IsDigits ds → IsFraction ('.' :: ds) ds

/-- `[+-]?`, and whether it is a minus. -/
inductive IsSign : List Char → Bool → Prop
  | none : IsSign [] false
  | plus : IsSign ['+'] false
  | minus : IsSign ['-'] true

/-- The number that digits spell behind a sign. -/
def signed (below : Bool) (ds : List Char) : Int :=
  let n : Int := Nat.ofDigitChars 10 ds 0
  if below then -n else n

/-- `([eE][+-]?[0-9]+)?`, and the power of ten. -/
inductive IsPower : List Char → Int → Prop
  | none : IsPower [] 0
  | power {e : Char} {sign ds : List Char} {below : Bool} :
      e = 'e' ∨ e = 'E' → IsSign sign below → IsDigits ds →
        IsPower (e :: (sign ++ ds)) (signed below ds)

/-- `[0-9]+(\.[0-9]+)?([eE][+-]?[0-9]+)?`, and the decimal that it spells behind its sign. -/
inductive IsUnsigned (negative : Bool) : List Char → Decimal → Prop
  | digits {whole fraction ds power : List Char} {exponent : Int} :
      IsDigits whole → IsFraction fraction ds → IsPower power exponent →
        IsUnsigned negative (whole ++ (fraction ++ power))
          ⟨negative, Nat.ofDigitChars 10 (whole ++ ds) 0, exponent - ds.length⟩

/-- `([^"\\]|\\.)*`, where the point stands for any character but a line end. -/
inductive IsBody : List Char → Prop
  | nil : IsBody []
  | plain {c : Char} {cs : List Char} : c ≠ '"' → c ≠ '\\' → IsBody cs → IsBody (c :: cs)
  | escape {c : Char} {cs : List Char} : c ≠ '\n' → IsBody cs → IsBody ('\\' :: c :: cs)

/-- What the characters between two quotes stand for: a backslash protects a quote or another
backslash, and may stand before nothing else. -/
inductive IsUnescaped : List Char → List Char → Prop
  | nil : IsUnescaped [] []
  | plain {c : Char} {cs s : List Char} :
      c ≠ '\\' → IsUnescaped cs s → IsUnescaped (c :: cs) (c :: s)
  | escape {c : Char} {cs s : List Char} :
      c = '"' ∨ c = '\\' → IsUnescaped cs s → IsUnescaped ('\\' :: c :: cs) (c :: s)

/-- The tokens of one character. -/
def punctuation : List (Char × Token) :=
  [('.', .dot), ('(', .openParen), (')', .closeParen), ('[', .openBracket), (']', .closeBracket),
    (',', .comma), ('=', .equals)]

/-- **The rules of tokens**, and what they make of the characters that match. The words `true` and
`false` are no names. A quoted text with a backslash in a wrong place matches, but is a fault. -/
inductive Matches : List Char → Mark → Prop
  /-- `[ \t\r]+` -/
  | blank {cs : List Char} : cs ≠ [] → (∀ c ∈ cs, isBlank c = true) → Matches cs .blank
  /-- `#[^\n]*` -/
  | comment {cs : List Char} : (∀ c ∈ cs, c ≠ '\n') → Matches ('#' :: cs) .blank
  | yes : Matches ['t', 'r', 'u', 'e'] (.token (.flag true))
  | no : Matches ['f', 'a', 'l', 's', 'e'] (.token (.flag false))
  | arrow : Matches ['-', '>'] (.token .arrow)
  | sign {c : Char} {t : Token} : (c, t) ∈ punctuation → Matches [c] (.token t)
  | unsigned {cs : List Char} {d : Decimal} :
      IsUnsigned false cs d → Matches cs (.token (.number d.nearest))
  | negative {cs : List Char} {d : Decimal} :
      IsUnsigned true cs d → Matches ('-' :: cs) (.token (.number d.nearest))
  | text {body s : List Char} :
      IsBody body → IsUnescaped body s →
        Matches ('"' :: (body ++ ['"'])) (.token (.text (String.ofList s)))
  | wrongText {body : List Char} :
      IsBody body → (∀ s, ¬ IsUnescaped body s) → Matches ('"' :: (body ++ ['"'])) .fault
  /-- `[a-zA-Z_][a-zA-Z0-9_]*` -/
  | ident {c : Char} {cs : List Char} :
      isNameStart c = true → (∀ d ∈ cs, isNameChar d = true) →
        c :: cs ≠ ['t', 'r', 'u', 'e'] → c :: cs ≠ ['f', 'a', 'l', 's', 'e'] →
          Matches (c :: cs) (.token (.ident (String.ofList (c :: cs))))
  /-- `\n+` -/
  | newline {cs : List Char} : cs ≠ [] → (∀ c ∈ cs, c = '\n') → Matches cs (.token .newline)

variable {cs q rest : List Char}

/-! ## Numbers -/

section Numbers

variable {ds part : List Char} {exponent : Int} {negative : Bool} {d : Decimal}

/-- Nothing of a run of characters is left out. -/
theorem length_le_takeWhile {p : Char → Bool} (h : ∀ d ∈ q, p d = true) (rest : List Char) :
    q.length ≤ ((q ++ rest).takeWhile p).length := by
  rw [List.takeWhile_append_of_pos h, List.length_append]
  omega

/-- Characters of a class are taken up to the first one that is in another. -/
theorem takeWhile_stop {p : Char → Bool} (h : ∀ d ∈ q, p d = true)
    (hstop : ∀ c ∈ rest.head?, p c = false) : (q ++ rest).takeWhile p = q := by
  have hrest : rest.takeWhile p = [] := by
    cases rest <;> simp_all
  rw [List.takeWhile_append_of_pos h, hrest, List.append_nil]

theorem takeWhile_digits (h : IsDigits ds) (hstop : ∀ c ∈ rest.head?, c.isDigit = false) :
    (ds ++ rest).takeWhile Char.isDigit = ds :=
  takeWhile_stop h.2 hstop

theorem isDigits_takeWhile (h : cs.takeWhile Char.isDigit ≠ []) :
    IsDigits (cs.takeWhile Char.isDigit) :=
  ⟨h, List.all_eq_true.1 List.all_takeWhile⟩

/-- The length of the fraction at the head of a text. -/
def fractionLength (cs : List Char) : Nat :=
  if (fractionDigits cs).isEmpty then 0 else (fractionDigits cs).length + 1

/-- The fraction at the head of a text matches. -/
theorem isFraction_take (cs : List Char) :
    IsFraction (cs.take (fractionLength cs)) (fractionDigits cs) := by
  unfold fractionLength
  split
  · next h =>
    rw [List.isEmpty_iff.1 h]
    exact .none
  · next h =>
    rw [List.isEmpty_iff] at h
    revert h
    unfold fractionDigits
    split
    · next rest =>
      intro h
      rw [List.take_succ_cons, ← List.prefix_iff_eq_take.1 (List.takeWhile_prefix Char.isDigit)]
      exact .point (isDigits_takeWhile h)
    · intro h
      exact absurd rfl h

theorem length_le_fractionLength (h : IsFraction part ds) (rest : List Char) :
    part.length ≤ fractionLength (part ++ rest) := by
  cases h with
  | none => exact Nat.zero_le _
  | point hds =>
    have hle := length_le_takeWhile hds.2 rest
    have hne : ¬ ((ds ++ rest).takeWhile Char.isDigit).isEmpty = true := by
      rw [List.isEmpty_iff, ← List.length_eq_zero_iff]
      have hpos := List.length_pos_iff.2 hds.1
      omega
    simp only [fractionLength, fractionDigits, List.cons_append, List.length_cons]
    rw [if_neg hne]
    omega

/-- A fraction ends at a character that is neither a digit nor a point. -/
theorem fractionLength_eq (h : IsFraction part ds)
    (hstop : ∀ c ∈ rest.head?, c.isDigit = false ∧ c ≠ '.') :
    fractionLength (part ++ rest) = part.length := by
  cases h with
  | none =>
    have hnone : fractionDigits rest = [] := by
      unfold fractionDigits
      split
      · exact absurd rfl (hstop '.' (by simp)).2
      · rfl
    simp [fractionLength, hnone]
  | point hds =>
    simp only [fractionLength, fractionDigits, List.cons_append,
      takeWhile_digits hds fun c hc => (hstop c hc).1]
    rw [if_neg (by simpa using hds.1), List.length_cons]

/-- A sign stands apart from what follows it. -/
theorem exists_sign (cs : List Char) : ∃ sign below rest, cs = sign ++ rest ∧
    IsSign sign below ∧ (sign = [] → ∀ c ∈ rest.head?, c ≠ '+' ∧ c ≠ '-') := by
  by_cases hplus : ∃ rest, cs = '+' :: rest
  · obtain ⟨rest, rfl⟩ := hplus
    exact ⟨['+'], false, rest, rfl, .plus, by simp⟩
  by_cases hminus : ∃ rest, cs = '-' :: rest
  · obtain ⟨rest, rfl⟩ := hminus
    exact ⟨['-'], true, rest, rfl, .minus, by simp⟩
  refine ⟨[], false, cs, rfl, .none, fun _ c hc => ?_⟩
  obtain ⟨tail, rfl⟩ := List.head?_eq_some_iff.1 hc
  constructor
  · rintro rfl
    exact hplus ⟨tail, rfl⟩
  · rintro rfl
    exact hminus ⟨tail, rfl⟩

theorem exponentPart_sign {e : Char} {sign : List Char} {below : Bool} (he : e = 'e' ∨ e = 'E')
    (hsign : IsSign sign below) (hrest : sign = [] → ∀ c ∈ rest.head?, c ≠ '+' ∧ c ≠ '-') :
    exponentPart (e :: (sign ++ rest)) =
      if (rest.takeWhile Char.isDigit).isEmpty then none
      else some (below, rest.takeWhile Char.isDigit,
        1 + sign.length + (rest.takeWhile Char.isDigit).length) := by
  unfold exponentPart
  dsimp only
  rw [if_pos he]
  cases hsign with
  | none =>
    cases rest with
    | nil => rfl
    | cons c rest =>
      obtain ⟨hplus, hminus⟩ := hrest rfl c rfl
      simp [hplus, hminus]
  | plus => rfl
  | minus => rfl

theorem exponentPart_eq_none {e : Char} (he : ¬ (e = 'e' ∨ e = 'E')) :
    exponentPart (e :: rest) = none := by
  unfold exponentPart
  dsimp only
  rw [if_neg he]

/-- The length of the power of ten at the head of a text. -/
def powerLength (cs : List Char) : Nat :=
  match exponentPart cs with
  | some (_, _, length) => length
  | none => 0

/-- The power of ten at the head of a text. -/
def powerAt (cs : List Char) : Int :=
  match exponentPart cs with
  | some (below, ds, _) => signed below ds
  | none => 0

/-- The power of ten at the head of a text matches. -/
theorem isPower_take (cs : List Char) : IsPower (cs.take (powerLength cs)) (powerAt cs) := by
  unfold powerLength powerAt
  cases cs with
  | nil => exact .none
  | cons e rest =>
    by_cases he : e = 'e' ∨ e = 'E'
    · obtain ⟨sign, below, rest, rfl, hsign, hrest⟩ := exists_sign rest
      rw [exponentPart_sign he hsign hrest]
      by_cases hds : rest.takeWhile Char.isDigit = []
      · simp only [hds, List.isEmpty_nil, if_true, List.take_zero]
        exact .none
      · rw [if_neg (by rwa [List.isEmpty_iff])]
        have htake : (e :: (sign ++ rest)).take
            (1 + sign.length + (rest.takeWhile Char.isDigit).length) =
              e :: (sign ++ rest.takeWhile Char.isDigit) := by
          rw [Nat.add_assoc, Nat.add_comm 1, List.take_succ_cons, List.take_length_add_append,
            ← List.prefix_iff_eq_take.1 (List.takeWhile_prefix Char.isDigit)]
        dsimp only
        rw [htake]
        exact .power he hsign (isDigits_takeWhile hds)
    · rw [exponentPart_eq_none he]
      exact .none

theorem length_le_powerLength (h : IsPower part exponent) (rest : List Char) :
    part.length ≤ powerLength (part ++ rest) := by
  cases h with
  | none => exact Nat.zero_le _
  | @power e sign ds below he hsign hds =>
    have hle := length_le_takeWhile hds.2 rest
    have hne : ¬ ((ds ++ rest).takeWhile Char.isDigit).isEmpty = true := by
      rw [List.isEmpty_iff, ← List.length_eq_zero_iff]
      have hpos := List.length_pos_iff.2 hds.1
      omega
    have hhead : sign = [] → ∀ c ∈ (ds ++ rest).head?, c ≠ '+' ∧ c ≠ '-' := by
      intro _ c hc
      obtain ⟨first, ds, rfl⟩ := List.exists_cons_of_ne_nil hds.1
      obtain rfl : first = c := by simpa using hc
      have hdigit := hds.2 first List.mem_cons_self
      constructor <;> (rintro rfl; revert hdigit; decide)
    rw [List.cons_append, List.append_assoc, powerLength, exponentPart_sign he hsign hhead,
      if_neg hne]
    simp only [List.length_cons, List.length_append]
    omega

theorem scanNumber_eq (negative : Bool) (cs : List Char) :
    let whole := cs.takeWhile Char.isDigit
    let behind := cs.drop whole.length
    let last := behind.drop (fractionLength behind)
    scanNumber negative cs =
      (⟨negative, Nat.ofDigitChars 10 (whole ++ fractionDigits behind) 0,
          powerAt last - (fractionDigits behind).length⟩,
        whole.length + fractionLength behind + powerLength last) := by
  dsimp only
  unfold scanNumber powerAt powerLength fractionLength
  simp only [List.drop_drop]
  generalize exponentPart _ = part
  rcases part with _ | ⟨below, power, length⟩
  · simp only [Nat.add_zero, Int.zero_sub]
  · rfl

/-- **A number at the head of a text matches.** -/
theorem isUnsigned_scanNumber (negative : Bool) (hdigit : cs.takeWhile Char.isDigit ≠ []) :
    IsUnsigned negative (cs.take (scanNumber negative cs).2) (scanNumber negative cs).1 := by
  have heq := scanNumber_eq negative cs
  dsimp only at heq
  rw [heq]
  dsimp only
  rw [List.take_add, List.take_add, ← List.prefix_iff_eq_take.1 (List.takeWhile_prefix _),
    List.append_assoc, ← List.drop_drop]
  exact .digits (isDigits_takeWhile hdigit) (isFraction_take _) (isPower_take _)

/-- **No longer number** is at the head of a text. -/
theorem length_le_scanNumber (h : IsUnsigned negative part d) (sign : Bool) (rest : List Char) :
    part.length ≤ (scanNumber sign (part ++ rest)).2 := by
  have heq := scanNumber_eq sign (part ++ rest)
  dsimp only at heq
  rw [heq]
  cases h with
  | @digits whole fraction ds power exponent hwhole hfraction hpower =>
    rw [List.append_assoc, List.append_assoc]
    simp only [List.length_append]
    -- a part that is not empty stops the part before it
    by_cases hbare : fraction = [] ∧ power = []
    · obtain ⟨rfl, rfl⟩ := hbare
      have hle := length_le_takeWhile hwhole.2 rest
      simp only [List.nil_append, List.length_nil]
      omega
    have hstop : ∀ c ∈ (fraction ++ (power ++ rest)).head?, c.isDigit = false := by
      intro c hc
      have hmark : c = '.' ∨ c = 'e' ∨ c = 'E' := by
        cases hfraction with
        | none =>
          cases hpower with
          | none => exact absurd ⟨rfl, rfl⟩ hbare
          | power he =>
            obtain rfl := Option.some.inj hc
            exact Or.inr he
        | point => exact Or.inl (Option.some.inj hc).symm
      rcases hmark with rfl | rfl | rfl <;> decide
    rw [takeWhile_digits hwhole hstop, List.drop_left]
    cases hpower with
    | none =>
      have hle := length_le_fractionLength hfraction rest
      simp only [List.nil_append, List.length_nil]
      omega
    | @power e signs ds' below he hsign hds =>
      have hend : ∀ c ∈ (e :: (signs ++ ds') ++ rest).head?, c.isDigit = false ∧ c ≠ '.' := by
        intro c hc
        obtain rfl := Option.some.inj hc
        rcases he with rfl | rfl <;> decide
      have hle := length_le_powerLength (.power he hsign hds) rest
      rw [fractionLength_eq hfraction hend, List.drop_left]
      omega

end Numbers

/-! ## Quoted texts -/

section Texts

variable {body s : List Char}

theorem isBody_take (cs : List Char) : IsBody (cs.take (bodyLength cs)) := by
  fun_induction bodyLength cs with
  | case1 => exact .nil
  | case2 rest => exact .nil
  | case3 c rest hc ih => exact .escape hc ih
  | case4 c rest h hc => exact .nil
  | case5 c rest h hc ih =>
    rw [not_or] at hc
    exact .plain hc.1 hc.2 ih

/-- A closing quote ends what is taken. -/
theorem bodyLength_append (h : IsBody body) : bodyLength (body ++ '"' :: rest) = body.length := by
  induction h with
  | nil => simp [bodyLength]
  | plain hquote hslash _ ih => simp [bodyLength, hquote, hslash, ih]
  | escape hline _ ih => simp [bodyLength, hline, ih]

theorem unescape?_eq_some_iff : unescape? body = some s ↔ IsUnescaped body s := by
  constructor
  · intro h
    fun_induction unescape? body generalizing s with
    | case1 =>
      obtain rfl := Option.some.inj h
      exact .nil
    | case2 c rest hc ih =>
      obtain ⟨s, hs, rfl⟩ := Option.map_eq_some_iff.1 h
      exact .escape hc (ih hs)
    | case3 c rest hc => cases h
    | case4 => cases h
    | case5 c rest _ hc ih =>
      obtain ⟨s, hs, rfl⟩ := Option.map_eq_some_iff.1 h
      exact .plain hc (ih hs)
  · intro h
    induction h with
    | nil => rfl
    | plain hc _ ih => simp [unescape?, hc, ih]
    | escape hc _ ih => simp [unescape?, hc, ih]

end Texts

end ShapeFlow.Sketch
