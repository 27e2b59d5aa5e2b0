import ShapeFlow.Proofs.Parse

/-!
# The first token that no sketch can have

* `Sketch.Viable`: some tokens are the beginning of a sketch.
* `Sketch.exists_completion`: from every position some tokens lead to the end of a sketch, so no
  position is a dead end.
* `Sketch.parse_stops_where_impossible`: **the one error of grammar sits at the first token that no
  continuation can save**, or at the end of a text that ends too early.
-/

namespace ShapeFlow.Sketch

open Position

variable {p q : Position} {ts us : List Lexeme} {l : Lexeme}

/-- The tokens are the beginning of the tokens of a sketch. -/
def Viable (ts : List Lexeme) : Prop := ∃ rest statements, Spells (ts ++ rest) statements

/-- The beginning of a beginning is a beginning. -/
theorem Viable.of_append (h : Viable (ts ++ us)) : Viable ts := by
  obtain ⟨rest, statements, h⟩ := h
  exact ⟨us ++ rest, statements, by rwa [← List.append_assoc]⟩

theorem viable_iff :
    Viable ts ↔ ∃ rest statements, statementsFrom .lineStart (ts ++ rest) = .ok statements := by
  simp only [Viable, statementsFrom_eq_ok_iff]

/-- A token at no place, to complete a sketch with. -/
def Token.unplaced (token : Token) : Lexeme := ⟨token, ⟨0, 0⟩⟩

/-- Tokens that complete a statement from a position. -/
def Position.completion : Position → List Lexeme
  | lineStart => []
  | firstName _ => [Token.arrow.unplaced, (Token.ident "a").unplaced]
  | declared _ =>
    [(Token.ident "a").unplaced, Token.openParen.unplaced, Token.closeParen.unplaced]
  | blockName _ => [Token.openParen.unplaced, Token.closeParen.unplaced]
  | argument _ _ => [Token.closeParen.unplaced]
  | key _ _ _ =>
    [Token.equals.unplaced, (Token.ident "a").unplaced, Token.closeParen.unplaced]
  | value _ _ _ => [(Token.ident "a").unplaced, Token.closeParen.unplaced]
  | argumentEnd _ _ => [Token.closeParen.unplaced]
  | item _ _ _ _ _ => [Token.closeBracket.unplaced, Token.closeParen.unplaced]
  | itemEnd _ _ _ _ _ => [Token.closeBracket.unplaced, Token.closeParen.unplaced]
  | declarationEnd _ => []
  | firstDot _ =>
    [(Token.ident "a").unplaced, Token.arrow.unplaced, (Token.ident "a").unplaced]
  | firstHandle _ => [Token.arrow.unplaced, (Token.ident "a").unplaced]
  | arrow _ => [(Token.ident "a").unplaced]
  | laterName _ _ => []
  | laterDot _ _ => [(Token.ident "a").unplaced]
  | laterHandle _ _ => []

/-- **No position is a dead end.** -/
theorem exists_completion (p : Position) :
    ∃ rest statements, statementsFrom p rest = .ok statements := by
  refine ⟨p.completion, ?_⟩
  cases p <;> exact ⟨_, rfl⟩

/-- One token either leads to a next position, perhaps with a statement that ends there, or is a
fault whatever follows it. -/
theorem statementsFrom_cons (p : Position) (l : Lexeme) :
    (∃ q ended, ∀ ts, statementsFrom p (l :: ts) = (statementsFrom q ts).map (ended ++ ·)) ∨
      ∀ ts, statementsFrom p (l :: ts) = .error ⟨some l, p⟩ := by
  by_cases hl : l.token = .newline
  · cases hp : p.ending? with
    | some ended => exact Or.inl ⟨.lineStart, ended, fun ts => statementsFrom_newline hl hp⟩
    | none =>
      right
      intro ts
      rw [statementsFrom, if_pos hl, hp]
  · cases hq : p.next? l with
    | some q =>
      refine Or.inl ⟨q, [], fun ts => ?_⟩
      rw [statementsFrom_next hq]
      cases statementsFrom q ts <;> rfl
    | none =>
      right
      intro ts
      rw [statementsFrom, if_neg hl, hq]

/-- Where reading stops: at the end of tokens that could go on, or at a token behind others that
could go on without it, but not with it. -/
theorem fault_cases {fault : GrammarFault} (h : statementsFrom p ts = .error fault) :
    (fault.found = none ∧ ∃ rest statements, statementsFrom p (ts ++ rest) = .ok statements) ∨
    ∃ before l after, ts = before ++ l :: after ∧ fault.found = some l ∧
      (∃ rest statements, statementsFrom p (before ++ rest) = .ok statements) ∧
      ∀ rest statements, statementsFrom p (before ++ l :: rest) ≠ .ok statements := by
  -- only the first token is judged at `p`; the others are judged where it leads
  induction ts generalizing p with
  | nil =>
    left
    refine ⟨?_, exists_completion p⟩
    rw [statementsFrom] at h
    split at h
    · cases h
    · rw [← Except.error.inj h]
  | cons l ts ih =>
    rcases statementsFrom_cons p l with ⟨q, ended, hstep⟩ | hfault
    · -- what is read behind the token decides
      have hok : ∀ us, (∃ statements, statementsFrom q us = .ok statements) →
          ∃ statements, statementsFrom p (l :: us) = .ok statements := by
        rintro us ⟨statements, hus⟩
        exact ⟨ended ++ statements, by rw [hstep, hus]; rfl⟩
      have hq : statementsFrom q ts = .error fault := by
        rw [hstep] at h
        cases hts : statementsFrom q ts with
        | ok statements => rw [hts] at h; cases h
        | error e => rw [hts] at h; rw [Except.error.inj h]
      rcases ih hq with ⟨hend, rest, hrest⟩ | ⟨before, t, after, rfl, hfound, ⟨rest, hgo⟩, hstop⟩
      · exact Or.inl ⟨hend, rest, hok _ hrest⟩
      · refine Or.inr ⟨l :: before, t, after, rfl, hfound, ⟨rest, hok _ hgo⟩, ?_⟩
        intro rest statements hbad
        rw [List.cons_append, hstep, map_eq_ok_iff] at hbad
        obtain ⟨others, hothers, -⟩ := hbad
        exact hstop rest others hothers
    · right
      refine ⟨[], l, ts, rfl, ?_, exists_completion p, ?_⟩
      · rw [hfault] at h
        rw [← Except.error.inj h]
      · intro rest statements hbad
        rw [List.nil_append, hfault] at hbad
        cases hbad

/-- The tokens before a token that cannot follow are the longest beginning of a sketch. -/
theorem viable_take_iff {before after : List Lexeme} (hgo : Viable before)
    (hstop : ∀ rest statements, ¬ Spells (before ++ l :: rest) statements) (j : Nat) :
    Viable ((before ++ l :: after).take j) ↔ j ≤ before.length := by
  constructor
  · intro h
    -- a longer part has the impossible token in it
    by_contra hj
    obtain ⟨k, rfl⟩ : ∃ k, j = before.length + (k + 1) := ⟨j - before.length - 1, by omega⟩
    rw [List.take_length_add_append, List.take_succ_cons] at h
    obtain ⟨rest, statements, h⟩ := h
    rw [List.append_assoc, List.cons_append] at h
    exact hstop _ _ h
  · intro hj
    rw [List.take_append_of_le_length hj]
    rw [← List.take_append_drop j before] at hgo
    exact hgo.of_append

/-- **Errors of grammar sit at the first impossible token.** A text with a sketch has the errors of
its characters only. A text without one has those and then exactly one more. It covers the token
behind the longest part of the tokens that is the beginning of a sketch; or, if all of the tokens
are the beginning of a sketch but no sketch, it is empty and stands at the end of the text. -/
theorem parse_stops_where_impossible (source : String) :
    ((parse source).sketch.isSome = true → (parse source).errors = (lex source).faults) ∧
    ((parse source).sketch = none →
      ∃ fault : Located, (parse source).errors = (lex source).faults ++ [fault] ∧
        ((∃ i lexeme, (lex source).lexemes[i]? = some lexeme ∧
            (∀ j, Viable ((lex source).lexemes.take j) ↔ j ≤ i) ∧ fault.span = lexeme.span) ∨
          (Viable (lex source).lexemes ∧
            (¬ ∃ statements, Spells (lex source).lexemes statements) ∧
            fault.span = ⟨source.utf8ByteSize, source.utf8ByteSize⟩))) := by
  cases h : statementsFrom .lineStart (lex source).lexemes with
  | ok statements => simp [parse_eq, h]
  | error fault =>
    refine ⟨fun hsome => by simp [parse_eq, h] at hsome, fun _ => ?_⟩
    refine ⟨⟨fault.message, fault.span source.utf8ByteSize⟩, by simp [parse_eq, h], ?_⟩
    rcases fault_cases h with ⟨hend, hgo⟩ | ⟨before, l, after, hts, hfound, hgo, hstop⟩
    · right
      refine ⟨viable_iff.2 hgo, ?_, by rw [GrammarFault.span, hend]⟩
      rintro ⟨statements, hspells⟩
      rw [hspells.statementsFrom] at h
      cases h
    · left
      refine ⟨before.length, l, by rw [hts]; simp, ?_, by rw [GrammarFault.span, hfound]⟩
      rw [hts]
      exact viable_take_iff (viable_iff.2 hgo) fun rest statements hspells =>
        hstop rest statements hspells.statementsFrom

/-- A sketch with a stray character and a declaration that is not closed. -/
def unclosed : String := "$ x = Linear(in_features = 3\n"

theorem parse_stops_where_impossible_unclosed :
    (parse unclosed).sketch = none ∧
      ∃ fault : Located, (parse unclosed).errors = (lex unclosed).faults ++ [fault] ∧
        fault.span = ⟨28, 29⟩ ∧ ∀ j, Viable ((lex unclosed).lexemes.take j) ↔ j ≤ 7 := by
  have hnone : (parse unclosed).sketch = none := by decide +kernel
  obtain ⟨fault, herrors, hplace⟩ := (parse_stops_where_impossible unclosed).2 hnone
  have hspans : (parse unclosed).errors.map (·.span) = [⟨0, 1⟩, ⟨28, 29⟩] := by decide +kernel
  have hfaults : (lex unclosed).faults.map (·.span) = [⟨0, 1⟩] := by decide +kernel
  have hfault : fault.span = ⟨28, 29⟩ := by
    rw [herrors, List.map_append, hfaults] at hspans
    simpa using hspans
  refine ⟨hnone, fault, herrors, hfault, ?_⟩
  rcases hplace with ⟨i, lexeme, hi, hviable, hspan⟩ | ⟨-, -, hspan⟩
  · -- the line end is the eighth token
    have hlength : (lex unclosed).lexemes.length = 8 := by decide +kernel
    have hlt : i < 8 := hlength ▸ (List.getElem?_eq_some_iff.1 hi).1
    have honly : ∀ i < 8, ((lex unclosed).lexemes[i]?).map (·.span) = some ⟨28, 29⟩ → i = 7 := by
      decide +kernel
    obtain rfl := honly i hlt (by rw [hi, Option.map_some, ← hspan, hfault])
    exact hviable
  · rw [hfault] at hspan
    exact absurd hspan (by decide +kernel)

end ShapeFlow.Sketch
