import ShapeFlow.Proofs.Lexical

/-!
# The longest match

Of the beginnings of a text that match a rule the longest one counts. The first character decides
which rules can match at all, and so what can stand behind it.

* `Sketch.Longest`: the longest beginning of a text that matches a rule.
* `Sketch.Matches.follows`: what can stand behind the first character of a match.
* `Sketch.scan_reads`: **what is found at the head of a text is its longest match**, and a fault
  where nothing matches.
-/

namespace ShapeFlow.Sketch

/-- **The longest match** at the head of a text: some characters match a rule, and together with
more of the characters behind them they match none. -/
def Longest (piece rest : List Char) (mark : Mark) : Prop :=
  Matches piece mark ∧
    ∀ more after, rest = more ++ after → more ≠ [] → ∀ other, ¬ Matches (piece ++ more) other

/-- What is read at the head of a text: the longest match, or, where nothing matches, a fault. -/
inductive Reads (piece rest : List Char) : Mark → Prop
  | matched {mark : Mark} : Longest piece rest mark → Reads piece rest mark
  | stray : piece ≠ [] →
      (∀ first after, piece ++ rest = first ++ after → ∀ mark, ¬ Matches first mark) →
        Reads piece rest .fault

variable {c : Char} {cs q rest : List Char} {n : Nat} {mark : Mark}

/-! ## The first character decides -/

/-- What can follow a first character within a match. -/
def Follows (c : Char) (q : List Char) : Prop :=
  if isBlank c then ∀ d ∈ q, isBlank d = true
  else if c = '#' then ∀ d ∈ q, d ≠ '\n'
  else if c = '\n' then ∀ d ∈ q, d = '\n'
  else if isNameStart c then ∀ d ∈ q, isNameChar d = true
  else if c.isDigit then ∃ d, IsUnsigned false (c :: q) d
  else if c = '-' then q = ['>'] ∨ ∃ d, IsUnsigned true q d
  else if c = '"' then ∃ body, IsBody body ∧ q = body ++ ['"']
  else q = [] ∧ c ∈ punctuation.map (·.1)

theorem IsUnsigned.head {negative : Bool} {d : Decimal} (h : IsUnsigned negative cs d) :
    ∃ c q, cs = c :: q ∧ c.isDigit = true := by
  cases h with
  | digits hwhole =>
    obtain ⟨c, ds, rfl⟩ := List.exists_cons_of_ne_nil hwhole.1
    exact ⟨c, _, rfl, hwhole.2 c List.mem_cons_self⟩

/-- A character of a class is none that is not in it. -/
theorem ne_of_class {p : Char → Bool} (h : p c = true) (d : Char) (hd : p d = false) : c ≠ d := by
  rintro rfl
  rw [hd] at h
  cases h

/-- What begins a name begins nothing else. -/
theorem ne_of_isNameStart (h : isNameStart c = true) :
    isBlank c = false ∧ c ≠ '#' ∧ c ≠ '\n' := by
  have hne := ne_of_class h
  refine ⟨?_, hne '#' (by decide), hne '\n' (by decide)⟩
  simp [isBlank, hne ' ' (by decide), hne '\t' (by decide), hne '\r' (by decide)]

theorem ne_of_isDigit (h : c.isDigit = true) :
    isBlank c = false ∧ c ≠ '#' ∧ c ≠ '\n' ∧ isNameStart c = false := by
  have hne := ne_of_class h
  refine ⟨?_, hne '#' (by decide), hne '\n' (by decide), ?_⟩
  · simp [isBlank, hne ' ' (by decide), hne '\t' (by decide), hne '\r' (by decide)]
  · -- the digits stand before all letters
    simp only [Char.isDigit, Bool.and_eq_true, decide_eq_true_eq, ge_iff_le,
      UInt32.le_iff_toNat_le] at h
    change ((decide (c.val ≥ 'A'.val ∧ c.val ≤ 'Z'.val) ||
      decide (c.val ≥ 'a'.val) && decide (c.val ≤ 'z'.val)) || c == '_') = false
    simp only [Bool.or_eq_false_iff, Bool.and_eq_false_iff, decide_eq_false_iff_not,
      beq_eq_false_iff_ne, ge_iff_le, UInt32.le_iff_toNat_le]
    have h9 : '9'.val.toNat = 57 := rfl
    have hA : 'A'.val.toNat = 65 := rfl
    have ha : 'a'.val.toNat = 97 := rfl
    refine ⟨⟨?_, ?_⟩, hne '_' (by decide)⟩ <;> omega

theorem ne_of_mem_punctuation {p : Char × Token} (h : p ∈ punctuation) :
    isBlank p.1 = false ∧ p.1 ≠ '#' ∧ p.1 ≠ '\n' ∧ isNameStart p.1 = false ∧
      p.1.isDigit = false ∧ p.1 ≠ '-' ∧ p.1 ≠ '"' := by
  revert p
  decide

theorem follows_blank_iff (h : isBlank c = true) : Follows c q ↔ ∀ d ∈ q, isBlank d = true := by
  rw [Follows, if_pos h]

theorem follows_hash_iff : Follows '#' q ↔ ∀ d ∈ q, d ≠ '\n' := by
  rw [Follows, if_neg (by decide), if_pos rfl]

theorem follows_newline_iff : Follows '\n' q ↔ ∀ d ∈ q, d = '\n' := by
  rw [Follows, if_neg (by decide), if_neg (by decide), if_pos rfl]

theorem follows_name_iff (h : isNameStart c = true) :
    Follows c q ↔ ∀ d ∈ q, isNameChar d = true := by
  obtain ⟨hblank, hhash, hline⟩ := ne_of_isNameStart h
  rw [Follows, if_neg (Bool.eq_false_iff.1 hblank), if_neg hhash, if_neg hline, if_pos h]

theorem follows_digit_iff (h : c.isDigit = true) :
    Follows c q ↔ ∃ d, IsUnsigned false (c :: q) d := by
  obtain ⟨hblank, hhash, hline, hname⟩ := ne_of_isDigit h
  rw [Follows, if_neg (Bool.eq_false_iff.1 hblank), if_neg hhash, if_neg hline,
    if_neg (Bool.eq_false_iff.1 hname), if_pos h]

/-- A minus begins an arrow or a number. -/
theorem follows_minus_iff : Follows '-' q ↔ q = ['>'] ∨ ∃ d, IsUnsigned true q d := by
  rw [Follows, if_neg (by decide), if_neg (by decide), if_neg (by decide), if_neg (by decide),
    if_neg (by decide), if_pos rfl]

theorem follows_quote_iff : Follows '"' q ↔ ∃ body, IsBody body ∧ q = body ++ ['"'] := by
  rw [Follows, if_neg (by decide), if_neg (by decide), if_neg (by decide), if_neg (by decide),
    if_neg (by decide), if_neg (by decide), if_pos rfl]

theorem follows_sign_iff {t : Token} (h : (c, t) ∈ punctuation) : Follows c q ↔ q = [] := by
  obtain ⟨hblank, hhash, hline, hname, hdigit, hminus, hquote⟩ := ne_of_mem_punctuation h
  rw [Follows, if_neg (Bool.eq_false_iff.1 hblank), if_neg hhash, if_neg hline,
    if_neg (Bool.eq_false_iff.1 hname), if_neg (Bool.eq_false_iff.1 hdigit), if_neg hminus,
    if_neg hquote]
  exact and_iff_left (List.mem_map_of_mem h)

/-- The first character of a match says what can stand behind it. -/
theorem Matches.follows (h : Matches (c :: q) mark) : Follows c q := by
  cases h with
  | blank _ hall =>
    have hrest : ∀ d ∈ q, isBlank d = true := fun d hd => hall d (List.mem_cons_of_mem c hd)
    exact (follows_blank_iff (hall c List.mem_cons_self)).2 hrest
  | comment hall => exact follows_hash_iff.2 hall
  | yes => exact (follows_name_iff (by decide)).2 (List.all_eq_true.1 rfl)
  | no => exact (follows_name_iff (by decide)).2 (List.all_eq_true.1 rfl)
  | arrow => exact follows_minus_iff.2 (Or.inl rfl)
  | sign h => exact (follows_sign_iff h).2 rfl
  | unsigned h =>
    obtain ⟨first, others, heq, hdigit⟩ := h.head
    obtain ⟨rfl, rfl⟩ := List.cons.inj heq
    exact (follows_digit_iff hdigit).2 ⟨_, h⟩
  | negative h => exact follows_minus_iff.2 (Or.inr ⟨_, h⟩)
  | text hbody hs => exact follows_quote_iff.2 ⟨_, hbody, rfl⟩
  | wrongText hbody hs => exact follows_quote_iff.2 ⟨_, hbody, rfl⟩
  | ident hc hall _ _ => exact (follows_name_iff hc).2 hall
  | newline _ hall =>
    obtain rfl := hall c List.mem_cons_self
    exact follows_newline_iff.2 fun d hd => hall d (List.mem_cons_of_mem _ hd)

theorem mem_takeWhile {p : Char → Bool} {d : Char} (h : d ∈ cs.takeWhile p) : p d = true :=
  List.all_eq_true.1 List.all_takeWhile d h

theorem word_of_ne (hyes : cs ≠ ['t', 'r', 'u', 'e']) (hno : cs ≠ ['f', 'a', 'l', 's', 'e']) :
    word (String.ofList cs) = .ident (String.ofList cs) := by
  have htrue : String.ofList cs ≠ "true" := fun h => hyes (String.ofList_inj.1 h)
  have hfalse : String.ofList cs ≠ "false" := fun h => hno (String.ofList_inj.1 h)
  rw [word, if_neg htrue, if_neg hfalse]

/-- A name is a word or one of the two flags. -/
theorem matches_word (hc : isNameStart c = true) (hall : ∀ d ∈ cs, isNameChar d = true) :
    Matches (c :: cs) (.token (word (String.ofList (c :: cs)))) := by
  by_cases hyes : c :: cs = ['t', 'r', 'u', 'e']
  · rw [hyes]
    exact .yes
  by_cases hno : c :: cs = ['f', 'a', 'l', 's', 'e']
  · rw [hno]
    exact .no
  rw [word_of_ne hyes hno]
  exact .ident hc hall hyes hno

theorem not_matches_nil : ¬ Matches [] mark := by
  intro h
  cases h with
  | blank hne => exact hne rfl
  | newline hne => exact hne rfl
  | unsigned h =>
    obtain ⟨c, q, heq, -⟩ := h.head
    cases heq

/-- A match is the longest if nothing longer can follow its first character. -/
theorem longest_of_follows (hmatch : Matches (c :: cs.take n) mark)
    (hmax : ∀ q rest, cs = q ++ rest → Follows c q → q.length ≤ n) :
    Longest (c :: cs.take n) (cs.drop n) mark := by
  refine ⟨hmatch, fun more after hrest hne other hother => ?_⟩
  have hle := hmax (cs.take n ++ more) after
    (by rw [List.append_assoc, ← hrest, List.take_append_drop]) hother.follows
  have hlength := congrArg List.length hrest
  have hpos := List.length_pos_iff.2 hne
  simp only [List.length_append, List.length_take, List.length_drop] at hle hlength
  omega

/-- The longest match of a rule for characters of one class. -/
theorem longest_takeWhile {p : Char → Bool} (hmatch : Matches (c :: cs.takeWhile p) mark)
    (hfollows : ∀ q, Follows c q → ∀ d ∈ q, p d = true) :
    Longest (c :: cs.take (cs.takeWhile p).length) (cs.drop (cs.takeWhile p).length) mark := by
  refine longest_of_follows ?_ ?_
  · rwa [← List.prefix_iff_eq_take.1 (List.takeWhile_prefix p)]
  · rintro q rest rfl hq
    exact length_le_takeWhile (hfollows q hq) rest

/-- Where nothing can follow the first character, no rule matches. -/
theorem stray_of_follows (h : ∀ q rest, cs = q ++ rest → ¬ Follows c q) :
    Reads (c :: cs.take n) (cs.drop n) .fault := by
  refine .stray (List.cons_ne_nil _ _) fun first after hsplit mark hmatch => ?_
  rw [List.cons_append, List.take_append_drop] at hsplit
  cases first with
  | nil => exact not_matches_nil hmatch
  | cons d q =>
    obtain ⟨rfl, hcs⟩ := List.cons.inj hsplit
    exact h q after hcs hmatch.follows

/-! ## What is read at the head of a text -/

theorem reads_blank (hblank : isBlank c = true) :
    Reads (c :: cs.take (cs.takeWhile isBlank).length) (cs.drop (cs.takeWhile isBlank).length)
      .blank := by
  refine .matched (longest_takeWhile (.blank (List.cons_ne_nil _ _) ?_) fun q hq => ?_)
  · simpa [hblank] using fun d hd => mem_takeWhile hd
  · exact (follows_blank_iff hblank).1 hq

theorem reads_comment :
    Reads ('#' :: cs.take (cs.takeWhile (· != '\n')).length)
      (cs.drop (cs.takeWhile (· != '\n')).length) .blank := by
  refine .matched (longest_takeWhile (.comment fun d hd => ?_) fun q hq => ?_)
  · simpa using mem_takeWhile hd
  · intro d hd
    simpa using follows_hash_iff.1 hq d hd

theorem reads_newline :
    Reads ('\n' :: cs.take (cs.takeWhile (· == '\n')).length)
      (cs.drop (cs.takeWhile (· == '\n')).length) (.token .newline) := by
  refine .matched (longest_takeWhile (.newline (List.cons_ne_nil _ _) ?_) fun q hq => ?_)
  · simpa using fun d hd => by simpa using mem_takeWhile hd
  · intro d hd
    simpa using follows_newline_iff.1 hq d hd

/-- **A name is read up to the first character that no name has.** -/
theorem reads_name (hname : isNameStart c = true) :
    Reads (c :: cs.take (cs.takeWhile isNameChar).length)
      (cs.drop (cs.takeWhile isNameChar).length)
      (.token (word (String.ofList (c :: cs.takeWhile isNameChar)))) := by
  refine .matched (longest_takeWhile (matches_word hname fun d hd => mem_takeWhile hd) ?_)
  intro q hq
  exact (follows_name_iff hname).1 hq

/-- A number without a sign is the longest match. -/
theorem reads_unsigned (hdigit : c.isDigit = true) :
    Reads (c :: cs.take ((scanNumber false (c :: cs)).2 - 1))
      (cs.drop ((scanNumber false (c :: cs)).2 - 1))
      (.token (.number (scanNumber false (c :: cs)).1.nearest)) := by
  have hrun : (c :: cs).takeWhile Char.isDigit ≠ [] := by simp [hdigit]
  have hmatch := isUnsigned_scanNumber false hrun
  obtain ⟨length, hlength⟩ : ∃ length, (scanNumber false (c :: cs)).2 = length + 1 := by
    obtain ⟨first, others, heq, -⟩ := hmatch.head
    refine Nat.exists_eq_succ_of_ne_zero fun hzero => ?_
    rw [hzero] at heq
    cases heq
  rw [hlength, List.take_succ_cons] at hmatch
  rw [hlength, Nat.add_sub_cancel]
  refine .matched (longest_of_follows (.unsigned hmatch) ?_)
  rintro q rest rfl hq
  obtain ⟨d, hd⟩ := (follows_digit_iff hdigit).1 hq
  have hle := length_le_scanNumber hd false rest
  rw [List.cons_append, hlength, List.length_cons] at hle
  omega

theorem reads_arrow : Reads ('-' :: ('>' :: cs).take 1) (('>' :: cs).drop 1) (.token .arrow) := by
  refine .matched (longest_of_follows .arrow fun q rest hsplit hq => ?_)
  rcases follows_minus_iff.1 hq with rfl | ⟨d, hd⟩
  · exact Nat.le_refl 1
  · -- a number does not begin with an angle
    obtain ⟨first, others, rfl, hdigit⟩ := hd.head
    obtain ⟨rfl, -⟩ := List.cons.inj hsplit
    exact absurd hdigit (by decide)

theorem reads_negative {d : Char} (hdigit : d.isDigit = true) :
    Reads ('-' :: (d :: cs).take (scanNumber true (d :: cs)).2)
      ((d :: cs).drop (scanNumber true (d :: cs)).2)
      (.token (.number (scanNumber true (d :: cs)).1.nearest)) := by
  have hrun : (d :: cs).takeWhile Char.isDigit ≠ [] := by simp [hdigit]
  refine .matched (longest_of_follows (.negative (isUnsigned_scanNumber true hrun)) ?_)
  intro q rest hsplit hq
  rcases follows_minus_iff.1 hq with rfl | ⟨decimal, hdecimal⟩
  · obtain ⟨rfl, -⟩ := List.cons.inj hsplit
    exact absurd hdigit (by decide)
  · rw [hsplit]
    exact length_le_scanNumber hdecimal true rest

/-- A minus in front of neither a digit nor an angle matches no rule. -/
theorem reads_minus (hhead : ∀ c ∈ cs.head?, c ≠ '>' ∧ c.isDigit = false) :
    Reads ('-' :: cs.take 0) (cs.drop 0) .fault := by
  refine stray_of_follows fun q rest hsplit hq => ?_
  rcases follows_minus_iff.1 hq with rfl | ⟨d, hd⟩
  · exact (hhead '>' (by rw [hsplit]; rfl)).1 rfl
  · obtain ⟨first, others, rfl, hdigit⟩ := hd.head
    have hno := (hhead first (by rw [hsplit]; rfl)).2
    rw [hno] at hdigit
    cases hdigit

/-- Behind an opening quote stands a text up to its closing quote, or a fault. -/
theorem reads_text (h : scanText cs = (mark, n)) : Reads ('"' :: cs.take n) (cs.drop n) mark := by
  unfold scanText at h
  dsimp only at h
  split at h
  · next hclosed =>
    obtain ⟨rest, hrest⟩ := List.head?_eq_some_iff.1 hclosed
    have htake : cs.take (bodyLength cs + 1) = cs.take (bodyLength cs) ++ ['"'] := by
      rw [List.take_add, hrest]
      rfl
    have hmax : ∀ q rest, cs = q ++ rest → Follows '"' q → q.length ≤ bodyLength cs + 1 := by
      intro q rest hsplit hq
      obtain ⟨body, hbody, rfl⟩ := follows_quote_iff.1 hq
      rw [List.append_assoc, List.singleton_append] at hsplit
      rw [hsplit, bodyLength_append hbody, List.length_append]
      exact Nat.le_refl _
    split at h
    · next s hs =>
      obtain ⟨rfl, rfl⟩ := Prod.mk.inj h
      refine .matched (longest_of_follows ?_ hmax)
      rw [htake]
      exact .text (isBody_take cs) (unescape?_eq_some_iff.1 hs)
    · next hs =>
      obtain ⟨rfl, rfl⟩ := Prod.mk.inj h
      refine .matched (longest_of_follows ?_ hmax)
      rw [htake]
      refine .wrongText (isBody_take cs) fun s hunescaped => ?_
      rw [unescape?_eq_some_iff.2 hunescaped] at hs
      cases hs
  · next hopen =>
    obtain ⟨rfl, rfl⟩ := Prod.mk.inj h
    refine stray_of_follows fun q rest hsplit hq => hopen ?_
    obtain ⟨body, hbody, rfl⟩ := follows_quote_iff.1 hq
    rw [List.append_assoc, List.singleton_append] at hsplit
    rw [hsplit, bodyLength_append hbody, List.drop_left]
    rfl

theorem reads_sign {t : Token} (h : (c, t) ∈ punctuation) :
    Reads (c :: cs.take 0) (cs.drop 0) (.token t) := by
  refine .matched (longest_of_follows (.sign h) fun q rest _ hq => ?_)
  rw [(follows_sign_iff h).1 hq]
  exact Nat.le_refl 0

/-- **What stands at the head of a text is its longest match**, and a fault where nothing
matches. -/
theorem scan_reads (h : scan c cs = (mark, n)) : Reads (c :: cs.take n) (cs.drop n) mark := by
  unfold scan at h
  split at h
  · next hblank =>
    obtain ⟨rfl, rfl⟩ := Prod.mk.inj h
    exact reads_blank hblank
  next hblank =>
  split at h
  · next hhash =>
    obtain ⟨rfl, rfl⟩ := Prod.mk.inj h
    exact hhash ▸ reads_comment
  next hhash =>
  split at h
  · next hline =>
    obtain ⟨rfl, rfl⟩ := Prod.mk.inj h
    exact hline ▸ reads_newline
  next hline =>
  split at h
  · next hname =>
    obtain ⟨rfl, rfl⟩ := Prod.mk.inj h
    exact reads_name hname
  next hname =>
  split at h
  · next hdigit =>
    obtain ⟨rfl, rfl⟩ := Prod.mk.inj h
    exact reads_unsigned hdigit
  next hdigit =>
  split at h
  · next hminus =>
    subst hminus
    split at h
    · obtain ⟨rfl, rfl⟩ := Prod.mk.inj h
      exact reads_arrow
    · next d rest hangle =>
      split at h
      · next hd =>
        obtain ⟨rfl, rfl⟩ := Prod.mk.inj h
        exact reads_negative hd
      · next hd =>
        obtain ⟨rfl, rfl⟩ := Prod.mk.inj h
        refine reads_minus fun c hc => ?_
        obtain rfl := Option.some.inj hc
        exact ⟨hangle, Bool.eq_false_iff.2 hd⟩
    · obtain ⟨rfl, rfl⟩ := Prod.mk.inj h
      exact reads_minus (by simp)
  next hminus =>
  split at h
  case h_1 => exact reads_text h
  case h_9 hquote hdot hopen hclose hleft hright hcomma hequals =>
    -- the character is in none of the classes
    obtain ⟨rfl, rfl⟩ := Prod.mk.inj h
    refine stray_of_follows fun q rest _ hq => ?_
    rw [Follows, if_neg hblank, if_neg hhash, if_neg hline, if_neg hname, if_neg hdigit,
      if_neg hminus, if_neg hquote] at hq
    obtain ⟨-, hsign⟩ := hq
    simp only [punctuation, List.map_cons, List.map_nil, List.mem_cons, List.not_mem_nil,
      or_false] at hsign
    rcases hsign with h | h | h | h | h | h | h
    exacts [hdot h, hopen h, hclose h, hleft h, hright h, hcomma h, hequals h]
  all_goals
    obtain ⟨rfl, rfl⟩ := Prod.mk.inj h
    exact reads_sign (by simp [punctuation])

end ShapeFlow.Sketch
