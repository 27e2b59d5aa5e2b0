import ShapeFlow.Proofs.Tiling
import Mathlib.Data.String.Basic

/-!
# Tokens set apart by spaces

No token goes on across a space. So the tokens of a text may be written with one space between any
two of them, whatever stood between them before, and are read again.

* `Sketch.scan_of_matches`: **what matches the rule of a token is read as that token** in front of a
  space or of the end of the text.
* `Sketch.Span.slice`: what a text has at some bytes.
* `Sketch.matches_slice`: a token matches its rule with what the text has at its bytes.
* `Sketch.respaced`: the tokens of a text as they are written there, with single spaces between.
* `Sketch.lex_respaced`: **tokens set apart by spaces are read again**, without a fault.
-/

namespace ShapeFlow.Sketch

open Text

/-- What follows is empty or begins with a space. -/
def Parted (rest : List Char) : Prop := ∀ c ∈ rest.head?, c = ' '

variable {c : Char} {cs q rest : List Char} {t : Token} {offset fuel : Nat}

theorem parted_nil : Parted [] := by simp [Parted]

theorem parted_space (cs : List Char) : Parted (' ' :: cs) := by simp [Parted]

/-- A run of characters of a class that has no space ends where a space may stand. -/
theorem takeWhile_parted {p : Char → Bool} (hq : ∀ d ∈ q, p d = true) (hspace : p ' ' = false)
    (hrest : Parted rest) : (q ++ rest).takeWhile p = q :=
  takeWhile_stop hq fun c hc => by rwa [hrest c hc]

/-! ## Numbers in front of a space -/

section Numbers

variable {ds part fraction power : List Char} {exponent : Int} {negative : Bool} {d : Decimal}

theorem fractionDigits_append (h : IsFraction part ds)
    (hstop : ∀ c ∈ rest.head?, c.isDigit = false ∧ c ≠ '.') :
    fractionDigits (part ++ rest) = ds := by
  cases h with
  | none =>
    rw [List.nil_append]
    unfold fractionDigits
    split
    · exact absurd rfl (hstop '.' rfl).2
    · rfl
  | point hds => exact takeWhile_digits hds fun c hc => (hstop c hc).1

/-- A power of ten is taken as a whole. -/
theorem exponentPart_append (h : IsPower part exponent) (hrest : Parted rest) :
    powerAt (part ++ rest) = exponent ∧ powerLength (part ++ rest) = part.length := by
  cases h with
  | none =>
    cases rest with
    | nil => exact ⟨rfl, rfl⟩
    | cons c rest =>
      obtain rfl := hrest c rfl
      exact ⟨rfl, rfl⟩
  | @power e sign ds below he hsign hds =>
    have hrun : (ds ++ rest).takeWhile Char.isDigit = ds := takeWhile_parted hds.2 rfl hrest
    -- Without a sign the power begins with a digit, which is not taken for one.
    have hhead : sign = [] → ∀ c ∈ (ds ++ rest).head?, c ≠ '+' ∧ c ≠ '-' := by
      intro _ c hc
      obtain ⟨first, ds, rfl⟩ := List.exists_cons_of_ne_nil hds.1
      obtain rfl : first = c := by simpa using hc
      have hne := ne_of_class (hds.2 first List.mem_cons_self)
      exact ⟨hne '+' (by decide), hne '-' (by decide)⟩
    have hpart : exponentPart (e :: (sign ++ ds) ++ rest) =
        some (below, ds, 1 + sign.length + ds.length) := by
      rw [List.cons_append, List.append_assoc, exponentPart_sign he hsign hhead, hrun,
        if_neg (by simpa using hds.1)]
    unfold powerAt powerLength
    rw [hpart]
    refine ⟨rfl, ?_⟩
    simp only [List.length_cons, List.length_append]
    omega

/-- Behind a fraction stands neither a digit nor a point. -/
theorem head_power (h : IsPower power exponent) (hrest : Parted rest) :
    ∀ c ∈ (power ++ rest).head?, c.isDigit = false ∧ c ≠ '.' := by
  intro c hc
  cases h with
  | none =>
    obtain rfl := hrest c hc
    decide
  | power he =>
    obtain rfl := Option.some.inj hc
    rcases he with rfl | rfl <;> decide

/-- Behind the whole part stands no digit. -/
theorem head_fraction (hfraction : IsFraction fraction ds) (hpower : IsPower power exponent)
    (hrest : Parted rest) : ∀ c ∈ (fraction ++ (power ++ rest)).head?, c.isDigit = false := by
  intro c hc
  cases hfraction with
  | none => exact (head_power hpower hrest c hc).1
  | point =>
    obtain rfl := Option.some.inj hc
    decide

/-- **A number is read as a whole.** -/
theorem scanNumber_append (h : IsUnsigned negative part d) (hrest : Parted rest) :
    scanNumber negative (part ++ rest) = (d, part.length) := by
  cases h with
  | @digits whole fraction ds power exponent hwhole hfraction hpower =>
    have heq := scanNumber_eq negative (whole ++ (fraction ++ (power ++ rest)))
    dsimp only at heq
    rw [takeWhile_digits hwhole (head_fraction hfraction hpower hrest), List.drop_left,
      fractionDigits_append hfraction (head_power hpower hrest),
      fractionLength_eq hfraction (head_power hpower hrest), List.drop_left] at heq
    obtain ⟨hpowerAt, hlength⟩ := exponentPart_append hpower hrest
    rw [List.append_assoc, List.append_assoc, heq, hpowerAt, hlength]
    simp only [List.length_append, Nat.add_assoc]

end Numbers

/-! ## Tokens in front of a space -/

theorem scan_name (hc : isNameStart c = true) (hall : ∀ d ∈ q, isNameChar d = true)
    (hrest : Parted rest) :
    scan c (q ++ rest) = (.token (word (String.ofList (c :: q))), q.length) := by
  obtain ⟨hblank, hhash, hline⟩ := ne_of_isNameStart hc
  rw [scan.eq_def, if_neg (Bool.eq_false_iff.1 hblank), if_neg hhash, if_neg hline, if_pos hc,
    takeWhile_parted hall (by decide) hrest]

theorem scan_unsigned {d : Decimal} (h : IsUnsigned false (c :: q) d) (hrest : Parted rest) :
    scan c (q ++ rest) = (.token (.number d.nearest), q.length) := by
  obtain ⟨first, others, heq, hdigit⟩ := h.head
  obtain ⟨rfl, rfl⟩ := List.cons.inj heq
  obtain ⟨hblank, hhash, hline, hname⟩ := ne_of_isDigit hdigit
  have hnumber := scanNumber_append h hrest
  rw [List.cons_append] at hnumber
  rw [scan.eq_def, if_neg (Bool.eq_false_iff.1 hblank), if_neg hhash, if_neg hline,
    if_neg (Bool.eq_false_iff.1 hname), if_pos hdigit, hnumber]
  rfl

theorem scan_negative {d : Decimal} (h : IsUnsigned true q d) (hrest : Parted rest) :
    scan '-' (q ++ rest) = (.token (.number d.nearest), q.length) := by
  obtain ⟨first, others, rfl, hdigit⟩ := h.head
  have hangle : first ≠ '>' := ne_of_class hdigit '>' (by decide)
  have hnumber := scanNumber_append h hrest
  rw [List.cons_append] at hnumber ⊢
  rw [scan.eq_def, if_neg (by decide), if_neg (by decide), if_neg (by decide), if_neg (by decide),
    if_neg (by decide), if_pos rfl]
  split
  · next heq => exact absurd (List.cons.inj heq).1 hangle
  · next heq =>
    obtain ⟨rfl, rfl⟩ := List.cons.inj heq
    rw [if_pos hdigit, hnumber]
  · next heq => cases heq

theorem scan_text {body s : List Char} (hbody : IsBody body) (hs : IsUnescaped body s) :
    scan '"' (body ++ '"' :: rest) =
      (.token (.text (String.ofList s)), (body ++ ['"']).length) := by
  have htext : scanText (body ++ '"' :: rest) =
      (.token (.text (String.ofList s)), body.length + 1) := by
    unfold scanText
    simp only [bodyLength_append hbody, List.drop_left, List.take_left, List.head?_cons, if_true,
      unescape?_eq_some_iff.2 hs]
  rw [List.length_append, List.length_singleton, ← htext]
  rfl

theorem scan_newline (hall : ∀ d ∈ q, d = '\n') (hrest : Parted rest) :
    scan '\n' (q ++ rest) = (.token .newline, q.length) := by
  rw [scan.eq_def, if_neg (by decide), if_neg (by decide), if_pos rfl,
    takeWhile_parted (by simpa using hall) (by decide) hrest]

theorem scan_sign (h : (c, t) ∈ punctuation) : scan c rest = (.token t, 0) := by
  simp only [punctuation, List.mem_cons, Prod.mk.injEq, List.not_mem_nil, or_false] at h
  rcases h with ⟨rfl, rfl⟩ | ⟨rfl, rfl⟩ | ⟨rfl, rfl⟩ | ⟨rfl, rfl⟩ | ⟨rfl, rfl⟩ | ⟨rfl, rfl⟩ |
    ⟨rfl, rfl⟩ <;> rfl

/-- **What matches the rule of a token is read as that token**, and nothing behind it is, in front
of a space or of the end of the text. -/
theorem scan_of_matches (h : Matches (c :: q) (.token t)) (hrest : Parted rest) :
    scan c (q ++ rest) = (.token t, q.length) := by
  cases h with
  | yes => exact scan_name (by decide) (List.all_eq_true.1 (by decide)) hrest
  | no => exact scan_name (by decide) (List.all_eq_true.1 (by decide)) hrest
  | arrow => rfl
  | sign h => exact scan_sign h
  | unsigned h => exact scan_unsigned h hrest
  | negative h => exact scan_negative h hrest
  | text hbody hs =>
    rw [List.append_assoc, List.singleton_append]
    exact scan_text hbody hs
  | ident hc hall hyes hno =>
    rw [scan_name hc hall hrest, word_of_ne hyes hno]
  | newline _ hall =>
    obtain rfl := hall c List.mem_cons_self
    exact scan_newline (fun d hd => hall d (List.mem_cons_of_mem _ hd)) hrest

/-! ## Reading on -/

/-- A token is read in front of a space, and then what follows it. -/
theorem lexFrom_token (fuel offset : Nat) (h : Matches (c :: q) (.token t)) (hrest : Parted rest) :
    lexFrom (fuel + 1) offset (c :: q ++ rest) =
      { lexFrom fuel (offset + byteLength (c :: q)) rest with
        lexemes := ⟨t, ⟨offset, offset + byteLength (c :: q)⟩⟩ ::
          (lexFrom fuel (offset + byteLength (c :: q)) rest).lexemes } := by
  rw [List.cons_append, lexFrom]
  simp only [scan_of_matches h hrest, List.take_left, List.drop_left]

/-- A single space is passed over. -/
theorem lexFrom_space (hhead : ∀ c ∈ cs.head?, isBlank c = false) :
    lexFrom (fuel + 1) offset (' ' :: cs) = lexFrom fuel (offset + 1) cs := by
  have hnone : cs.takeWhile isBlank = [] := takeWhile_stop (q := []) (by simp) hhead
  have hscan : scan ' ' cs = (.blank, 0) := by
    rw [scan.eq_def, if_pos (by decide), hnone]
    rfl
  rw [lexFrom]
  simp only [hscan, List.take_zero, List.drop_zero]
  rfl

/-- A token begins with no blank. -/
theorem Matches.not_blank (h : Matches (c :: q) (.token t)) : isBlank c = false := by
  cases h with
  | sign h => exact (ne_of_mem_punctuation h).1
  | unsigned h =>
    obtain ⟨first, others, heq, hdigit⟩ := h.head
    obtain ⟨rfl, -⟩ := List.cons.inj heq
    exact (ne_of_isDigit hdigit).1
  | ident hc => exact (ne_of_isNameStart hc).1
  | newline _ hall =>
    obtain rfl := hall c List.mem_cons_self
    rfl
  | _ => rfl

/-- Pieces of a text with single spaces between them. -/
def spaced (pieces : List (List Char)) : List Char := [' '].intercalate pieces

theorem spaced_cons_cons (a b : List Char) (pieces : List (List Char)) :
    spaced (a :: b :: pieces) = a ++ ' ' :: spaced (b :: pieces) := by
  rw [spaced, List.intercalate_cons_cons, List.append_assoc]
  rfl

theorem head?_spaced (c : Char) (cs : List Char) (pieces : List (List Char)) :
    (spaced ((c :: cs) :: pieces)).head? = some c := by
  cases pieces with
  | nil => rw [spaced, List.intercalate_singleton, List.head?_cons]
  | cons a pieces => rw [spaced_cons_cons, List.cons_append, List.head?_cons]

/-- **Tokens set apart by spaces are read one after the other.** -/
theorem lexFrom_spaced {items : List (Token × List Char)}
    (h : ∀ item ∈ items, Matches item.2 (.token item.1)) (offset : Nat)
    (hfuel : (spaced (items.map Prod.snd)).length ≤ fuel) :
    (lexFrom fuel offset (spaced (items.map Prod.snd))).faults = [] ∧
      (lexFrom fuel offset (spaced (items.map Prod.snd))).lexemes.map Lexeme.token =
        items.map Prod.fst := by
  -- The fuel counts characters, and a token has one at least.
  induction items generalizing fuel offset with
  | nil => cases fuel <;> exact ⟨rfl, rfl⟩
  | cons item items ih =>
    obtain ⟨hitem, hitems⟩ := List.forall_mem_cons.1 h
    obtain ⟨t, _ | ⟨c, q⟩⟩ := item
    · exact absurd hitem not_matches_nil
    cases items with
    | nil =>
      obtain ⟨fuel, rfl⟩ : ∃ n, fuel = n + 1 := ⟨fuel - 1, by simp [spaced] at hfuel; omega⟩
      have hread := lexFrom_token fuel offset hitem parted_nil
      rw [List.append_nil] at hread
      simp only [List.map_cons, List.map_nil, spaced, List.intercalate_singleton, hread]
      cases fuel <;> exact ⟨rfl, rfl⟩
    | cons next items =>
      obtain ⟨hnext, -⟩ := List.forall_mem_cons.1 hitems
      obtain ⟨u, _ | ⟨d, r⟩⟩ := next
      · exact absurd hnext not_matches_nil
      simp only [List.map_cons, spaced_cons_cons] at hfuel ih ⊢
      -- two steps: the token, and the space behind it
      obtain ⟨fuel, rfl⟩ : ∃ n, fuel = n + 2 := ⟨fuel - 2, by simp at hfuel; omega⟩
      have hhead : ∀ c ∈ (spaced ((d :: r) :: items.map Prod.snd)).head?, isBlank c = false := by
        intro c hc
        rw [head?_spaced] at hc
        obtain rfl := Option.some.inj hc
        exact hnext.not_blank
      rw [lexFrom_token _ _ hitem (parted_space _), lexFrom_space hhead]
      have hrest : (spaced ((d :: r) :: items.map Prod.snd)).length ≤ fuel := by
        simp at hfuel
        omega
      obtain ⟨hfaults, htokens⟩ := ih hitems (offset + byteLength (c :: q) + 1) hrest
      exact ⟨hfaults, congrArg (t :: ·) htokens⟩

/-! ## The tokens of a text as they are written -/

/-- What a text has at some bytes. -/
def Span.slice (source : String) (span : Span) : String :=
  String.Pos.Raw.extract source ⟨span.start⟩ ⟨span.stop⟩

section Slices

variable {source : String} {piece after : List Char} {span : Span}

theorem utf8Len_eq_byteLength (cs : List Char) : String.utf8Len cs = byteLength cs :=
  (String.utf8ByteSize_ofList cs).symm.trans (utf8ByteSize_ofList cs)

/-- **A piece of a text is what the text has at its bytes.** -/
theorem slice_of_standsBefore (h : StandsBefore source.toList piece after span) :
    (span.slice source).toList = piece := by
  obtain ⟨before, hsource, rfl⟩ := h
  obtain rfl : source = String.ofList (before ++ piece ++ after) := by
    rw [← String.ofList_toList (s := source), hsource, List.append_assoc]
  rw [Span.slice, ← utf8Len_eq_byteLength, ← utf8Len_eq_byteLength, String.extract_of_valid,
    String.toList_ofList]

/-- **A token matches its rule** with what the text has at its bytes. -/
theorem matches_slice {lexeme : Lexeme} (h : lexeme ∈ (lex source).lexemes) :
    Matches (lexeme.span.slice source).toList (.token lexeme.token) := by
  obtain ⟨tiles, htiles, hlex⟩ := lex_tiled source
  rw [hlex] at h
  obtain ⟨piece, after, hstands, hlongest⟩ := htiles.longest_of_mem h
  rw [slice_of_standsBefore hstands]
  exact hlongest.1

/-- **The tokens of a text as they are written there**, in order, with single spaces between them.
All blanks and comments are gone. -/
def respaced (source : String) : String :=
  " ".intercalate ((lex source).lexemes.map fun lexeme => lexeme.span.slice source)

/-- The tokens of a text, each with the characters that spell it. -/
def spelledTokens (source : String) : List (Token × List Char) :=
  (lex source).lexemes.map fun lexeme => (lexeme.token, (lexeme.span.slice source).toList)

theorem respaced_toList (source : String) :
    (respaced source).toList = spaced ((spelledTokens source).map Prod.snd) := by
  rw [respaced, String.toList_intercalate, spelledTokens, List.map_map, List.map_map]
  rfl

/-- **The tokens of a text are read again when they are set apart by spaces**, and nothing else is
found between them. -/
theorem lex_respaced (source : String) : (lex (respaced source)).faults = [] ∧
    (lex (respaced source)).lexemes.map Lexeme.token = (lex source).lexemes.map Lexeme.token := by
  have hmatches : ∀ item ∈ spelledTokens source, Matches item.2 (.token item.1) := by
    intro item hitem
    obtain ⟨lexeme, hlexeme, rfl⟩ := List.mem_map.1 hitem
    exact matches_slice hlexeme
  have htokens : (spelledTokens source).map Prod.fst = (lex source).lexemes.map Lexeme.token := by
    rw [spelledTokens, List.map_map]
    rfl
  rw [lex, respaced_toList, ← htokens]
  exact lexFrom_spaced hmatches 0 (Nat.le_refl _)

end Slices

end ShapeFlow.Sketch
