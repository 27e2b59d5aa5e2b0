import ShapeFlow.Proofs.Prediction
import ShapeFlow.Proofs.Outcome
import ShapeFlow.Proofs.Slice

/-!
# Reading follows the grammar

* `Sketch.Position.Behind`: what the tokens before a position form, by position.
* `Sketch.statementsFrom_eq_ok_iff`: **reading from position to position finds exactly what the
  grammar derives.**
* `Sketch.Spells.unique`: tokens spell one sketch at most.
* `Sketch.parse_follows_grammar`: **a text has a sketch iff the grammar derives its tokens, and the
  sketch is that derivation**, with every name as the text has it.
-/

namespace ShapeFlow.Sketch

namespace Position

variable {p q : Position} {ts us vs : List Lexeme} {l : Lexeme} {head : Head}
  {arguments : List Argument} {endpoints : List Endpoint}

/-- The beginning of a declaration and the arguments so far, each with a comma behind it. -/
def Within (head : Head) (arguments : List Argument) (ts : List Lexeme) : Prop :=
  ∃ start inner, IsHead start head ∧ Pending IsArgument inner arguments.reverse ∧
    ts = start ++ inner

/-- Endpoints so far, each with an arrow behind it. -/
def Joined (endpoints : List Endpoint) (ts : List Lexeme) : Prop :=
  ∃ us between, Separated .arrow IsEndpoint us endpoints.reverse ∧ ts = us ++ [⟨.arrow, between⟩]

/-- **What the tokens between the start of a line and a position form**, for every position. -/
def Behind : Position → List Lexeme → Prop
  | lineStart, ts => ts = []
  | firstName first, ts => ts = [first.lexeme]
  | declared name, ts => ∃ equals, ts = [name.lexeme, ⟨.equals, equals⟩]
  | blockName head, ts => ∃ equals, ts = [head.name.lexeme, ⟨.equals, equals⟩, head.block.lexeme]
  | argument head arguments, ts => Within head arguments ts
  | key head arguments name, ts => ∃ us, Within head arguments us ∧ ts = us ++ [name.lexeme]
  | value head arguments name, ts =>
    ∃ us equals, Within head arguments us ∧ ts = us ++ [name.lexeme, ⟨.equals, equals⟩]
  | argumentEnd head arguments, ts =>
    ∃ start inner, IsHead start head ∧ Separated .comma IsArgument inner arguments.reverse ∧
      ts = start ++ inner
  | item head arguments name start items, ts =>
    ∃ us equals opening numbers, Within head arguments us ∧ opening.start = start ∧
      Pending IsNumber numbers items.reverse ∧
      ts = us ++ name.lexeme :: ⟨.equals, equals⟩ :: ⟨.openBracket, opening⟩ :: numbers
  | itemEnd head arguments name start items, ts =>
    ∃ us equals opening numbers, Within head arguments us ∧ opening.start = start ∧
      Separated .comma IsNumber numbers items.reverse ∧
      ts = us ++ name.lexeme :: ⟨.equals, equals⟩ :: ⟨.openBracket, opening⟩ :: numbers
  | declarationEnd d, ts => IsDeclaration ts d
  | firstDot first, ts => ∃ dot, ts = [first.lexeme, ⟨.dot, dot⟩]
  | firstHandle e, ts => IsEndpoint ts e
  | arrow endpoints, ts => Joined endpoints ts
  | laterName endpoints node, ts => ∃ us, Joined endpoints us ∧ ts = us ++ [node.lexeme]
  | laterDot endpoints node, ts =>
    ∃ us dot, Joined endpoints us ∧ ts = us ++ [node.lexeme, ⟨.dot, dot⟩]
  | laterHandle endpoints e, ts =>
    ∃ us vs, Joined endpoints us ∧ IsEndpoint vs e ∧ ts = us ++ vs

theorem Within.behind_argumentEnd {a : Argument} (h : Within head arguments us)
    (ha : IsArgument vs a) : (argumentEnd head (a :: arguments)).Behind (us ++ vs) := by
  obtain ⟨start, inner, hhead, hinner, rfl⟩ := h
  refine ⟨start, inner ++ vs, hhead, ?_, List.append_assoc ..⟩
  rw [List.reverse_cons]
  exact hinner.snoc ha

/-- One value behind the `=` of an argument. -/
theorem Within.behind_value {key : Ident} {v : Value} (equals : Span)
    (h : Within head arguments us) (hv : IsValue vs v) :
    (argumentEnd head (⟨key, v⟩ :: arguments)).Behind
      (us ++ key.lexeme :: ⟨.equals, equals⟩ :: vs) :=
  h.behind_argumentEnd (.argument key equals hv)

/-- The closing bracket behind the numbers of a list. -/
theorem Within.behind_numbers {key : Ident} {xs : List Double} {numbers : List Lexeme}
    (equals opening closing : Span) (h : Within head arguments us) (hxs : Listed IsNumber numbers xs) :
    (argumentEnd head (⟨key, .numbers xs ⟨opening.start, closing.stop⟩⟩ :: arguments)).Behind
      (us ++ key.lexeme :: ⟨.equals, equals⟩ :: ⟨.openBracket, opening⟩ :: numbers ++
        [⟨.closeBracket, closing⟩]) := by
  have hvalue := IsValue.numbers opening closing hxs rfl
  rw [extent_cons_append] at hvalue
  rw [List.append_assoc]
  exact h.behind_value equals hvalue

/-- The closing parenthesis behind the arguments of a declaration. -/
theorem behind_declarationEnd {start inner : List Lexeme} {as : List Argument} (closing : Span)
    (hhead : IsHead start head) (has : Listed IsArgument inner as) :
    (declarationEnd ⟨head.name, head.block, as, ⟨head.name.span.start, closing.stop⟩⟩).Behind
      (start ++ inner ++ [⟨.closeParen, closing⟩]) := by
  have hdeclaration := IsDeclaration.declaration closing hhead has rfl
  cases hhead with
  | head name block equals opening =>
    have hextent := extent_cons_append name.lexeme ⟨.closeParen, closing⟩
      (⟨.equals, equals⟩ :: block.lexeme :: ⟨.openParen, opening⟩ :: inner)
    simp only [List.cons_append, List.nil_append] at hextent hdeclaration ⊢
    rw [hextent] at hdeclaration
    exact hdeclaration

theorem Joined.cons {e : Endpoint} (between : Span) (h : Joined endpoints us)
    (he : IsEndpoint vs e) : Joined (e :: endpoints) (us ++ vs ++ [⟨.arrow, between⟩]) := by
  obtain ⟨ws, other, hws, rfl⟩ := h
  refine ⟨ws ++ ⟨.arrow, other⟩ :: vs, between, ?_, by simp⟩
  rw [List.reverse_cons]
  exact hws.snoc other he

/-- The last endpoint makes a chain of those before it. -/
theorem Joined.isChain {e : Endpoint} (h : Joined endpoints us) (he : IsEndpoint vs e) :
    IsChain (us ++ vs) (.ofReverse endpoints e) := by
  obtain ⟨ws, between, hws, rfl⟩ := h
  have hwhole := hws.snoc between he
  -- endpoints are collected in reverse, so the first of a chain stands last
  rw [List.append_cons] at hwhole
  have hne := hws.ne_nil
  obtain ⟨first, others, hfirst⟩ := List.exists_cons_of_ne_nil hne
  have hextent : extent (ws ++ [⟨.arrow, between⟩] ++ vs) = ⟨first.span.start, e.span.stop⟩ :=
    hwhole.extent_endpoints (by rw [hfirst]; rfl) (List.getLast?_concat ..)
  refine ⟨hwhole, ?_, ?_⟩
  · simp only [Chain.ofReverse, hfirst]
    simp
  · have hlast : endpoints.getLast? = some first := by
      rw [← List.head?_reverse, hfirst]
      rfl
    rw [hextent, Chain.ofReverse, hlast]
    rfl

/-- **One token keeps the account of what stands behind.** -/
theorem Behind.next (h : p.Behind ts) (hq : p.next? l = some q) : q.Behind (ts ++ [l]) := by
  obtain ⟨token, span⟩ := l
  -- a position admits few tokens; after any other there is no next position
  cases p with
  | lineStart =>
    obtain rfl := h
    cases token with
    | ident name => obtain rfl := Option.some.inj hq; exact rfl
    | _ => cases hq
  | firstName first =>
    obtain rfl := h
    cases token with
    | equals => obtain rfl := Option.some.inj hq; exact ⟨span, rfl⟩
    | dot => obtain rfl := Option.some.inj hq; exact ⟨span, rfl⟩
    | arrow =>
      obtain rfl := Option.some.inj hq
      exact ⟨[first.lexeme], span, .one (.bare first), rfl⟩
    | _ => cases hq
  | declared name =>
    obtain ⟨equals, rfl⟩ := h
    cases token with
    | ident block => obtain rfl := Option.some.inj hq; exact ⟨equals, rfl⟩
    | _ => cases hq
  | blockName head =>
    obtain ⟨equals, rfl⟩ := h
    cases token with
    | openParen =>
      obtain rfl := Option.some.inj hq
      exact ⟨_, [], .head head.name head.block equals span, Or.inl ⟨rfl, rfl⟩, rfl⟩
    | _ => cases hq
  | argument head arguments =>
    cases token with
    | ident name => obtain rfl := Option.some.inj hq; exact ⟨ts, h, rfl⟩
    | closeParen =>
      obtain rfl := Option.some.inj hq
      obtain ⟨start, inner, hhead, hinner, rfl⟩ := h
      exact behind_declarationEnd span hhead hinner.listed
    | _ => cases hq
  | key head arguments name =>
    obtain ⟨us, hus, rfl⟩ := h
    cases token with
    | equals =>
      obtain rfl := Option.some.inj hq
      exact ⟨us, span, hus, by rw [List.append_assoc]; rfl⟩
    | _ => cases hq
  | value head arguments name =>
    obtain ⟨us, equals, hus, rfl⟩ := h
    rw [List.append_assoc]
    cases token with
    | number x => obtain rfl := Option.some.inj hq; exact hus.behind_value equals (.number x span)
    | flag b => obtain rfl := Option.some.inj hq; exact hus.behind_value equals (.flag b span)
    | text s => obtain rfl := Option.some.inj hq; exact hus.behind_value equals (.text s span)
    | ident s => obtain rfl := Option.some.inj hq; exact hus.behind_value equals (.name s span)
    | openBracket =>
      obtain rfl := Option.some.inj hq
      exact ⟨us, equals, span, [], hus, rfl, Or.inl ⟨rfl, rfl⟩, rfl⟩
    | _ => cases hq
  | argumentEnd head arguments =>
    obtain ⟨start, inner, hhead, hinner, rfl⟩ := h
    cases token with
    | comma =>
      obtain rfl := Option.some.inj hq
      exact ⟨start, _, hhead, hinner.pending span, by rw [List.append_assoc]⟩
    | closeParen =>
      obtain rfl := Option.some.inj hq
      exact behind_declarationEnd span hhead (.items hinner)
    | _ => cases hq
  | item head arguments name start items =>
    obtain ⟨us, equals, opening, numbers, hus, rfl, hnumbers, rfl⟩ := h
    cases token with
    | number x =>
      obtain rfl := Option.some.inj hq
      refine ⟨us, equals, opening, numbers ++ [⟨.number x, span⟩], hus, rfl, ?_, by simp⟩
      rw [List.reverse_cons]
      exact hnumbers.snoc (.number x span)
    | closeBracket =>
      obtain rfl := Option.some.inj hq
      exact hus.behind_numbers equals opening span hnumbers.listed
    | _ => cases hq
  | itemEnd head arguments name start items =>
    obtain ⟨us, equals, opening, numbers, hus, rfl, hnumbers, rfl⟩ := h
    cases token with
    | comma =>
      obtain rfl := Option.some.inj hq
      exact ⟨us, equals, opening, _, hus, rfl, hnumbers.pending span, by simp⟩
    | closeBracket =>
      obtain rfl := Option.some.inj hq
      exact hus.behind_numbers equals opening span (.items hnumbers)
    | _ => cases hq
  | declarationEnd d => cases hq
  | firstDot first =>
    obtain ⟨dot, rfl⟩ := h
    cases token with
    | ident name =>
      obtain rfl := Option.some.inj hq
      exact .withHandle first ⟨name, span⟩ dot rfl
    | _ => cases hq
  | firstHandle e =>
    cases token with
    | arrow => obtain rfl := Option.some.inj hq; exact ⟨ts, span, .one h, rfl⟩
    | _ => cases hq
  | arrow endpoints =>
    cases token with
    | ident name => obtain rfl := Option.some.inj hq; exact ⟨ts, h, rfl⟩
    | _ => cases hq
  | laterName endpoints node =>
    obtain ⟨us, hus, rfl⟩ := h
    cases token with
    | dot =>
      obtain rfl := Option.some.inj hq
      exact ⟨us, span, hus, by rw [List.append_assoc]; rfl⟩
    | arrow => obtain rfl := Option.some.inj hq; exact hus.cons span (.bare node)
    | _ => cases hq
  | laterDot endpoints node =>
    obtain ⟨us, dot, hus, rfl⟩ := h
    cases token with
    | ident name =>
      obtain rfl := Option.some.inj hq
      refine ⟨us, _, hus, .withHandle node ⟨name, span⟩ dot rfl, ?_⟩
      rw [List.append_assoc]
      rfl
    | _ => cases hq
  | laterHandle endpoints e =>
    obtain ⟨us, vs, hus, he, rfl⟩ := h
    cases token with
    | arrow => obtain rfl := Option.some.inj hq; exact hus.cons span he
    | _ => cases hq

/-- What ends at a position is what the tokens behind it form. -/
theorem Behind.ending {statements : List Statement} (h : p.Behind ts)
    (hp : p.ending? = some statements) :
    ts = [] ∧ statements = [] ∨ ∃ s, IsStatement ts s ∧ statements = [s] := by
  cases p with
  | lineStart => exact Or.inl ⟨h, (Option.some.inj hp).symm⟩
  | declarationEnd d => exact Or.inr ⟨.node d, .node h, (Option.some.inj hp).symm⟩
  | laterName endpoints node =>
    obtain ⟨us, hus, rfl⟩ := h
    exact Or.inr ⟨_, .chain (hus.isChain (.bare node)), (Option.some.inj hp).symm⟩
  | laterHandle endpoints e =>
    obtain ⟨us, vs, hus, he, rfl⟩ := h
    exact Or.inr ⟨_, .chain (hus.isChain he), (Option.some.inj hp).symm⟩
  | _ => cases hp

end Position

open Position

/-! ## Whole sketches -/

section Sketches

variable {p q : Position} {ts us rest : List Lexeme} {l : Lexeme} {s : Statement}
  {statements later : List Statement}

/-- A statement with line ends behind it. -/
theorem statementsFrom_isStatement {ends : List Lexeme} (h : IsStatement ts s)
    (hends : LineEnds ends) (hne : ends ≠ [] ∨ us = []) :
    statementsFrom .lineStart (ts ++ (ends ++ us)) =
      (statementsFrom .lineStart us).map (s :: ·) := by
  obtain ⟨p, hp, hending⟩ := advance?_isStatement h
  rw [statementsFrom_advance hp]
  cases ends with
  | nil =>
    obtain rfl : us = [] := hne.resolve_left (by simp)
    rw [List.nil_append, statementsFrom, hending]
    rfl
  | cons l ends =>
    rw [List.cons_append, statementsFrom_newline (hends l (List.mem_cons_self ..)) hending,
      statementsFrom_lineEnds fun t ht => hends t (List.mem_cons_of_mem _ ht)]
    rfl

theorem statementsFrom_isLines {ends : List Lexeme} (h : IsLines ts statements)
    (hends : LineEnds ends) : statementsFrom .lineStart (ts ++ ends) = .ok statements := by
  induction h with
  | @one ts s hs =>
    have hlast : statementsFrom .lineStart (ts ++ (ends ++ [])) =
        (statementsFrom .lineStart []).map (s :: ·) :=
      statementsFrom_isStatement hs hends (Or.inr rfl)
    rw [List.append_nil] at hlast
    rw [hlast]
    rfl
  | more hs hne hbetween _ ih =>
    rw [List.append_assoc, List.append_assoc, statementsFrom_isStatement hs hbetween (Or.inl hne),
      ih]
    rfl

/-- What the grammar derives is what is read. -/
theorem Spells.statementsFrom (h : Spells ts statements) :
    statementsFrom .lineStart ts = .ok statements := by
  cases h with
  | blank hts =>
    rw [← List.append_nil ts, statementsFrom_lineEnds hts]
    rfl
  | lines hbefore hlines hafter =>
    rw [List.append_assoc, statementsFrom_lineEnds hbefore]
    exact statementsFrom_isLines hlines hafter

theorem lineEnds_nil : LineEnds [] := fun _ ht => absurd ht List.not_mem_nil

theorem LineEnds.cons (hl : l.token = .newline) (h : LineEnds ts) : LineEnds (l :: ts) := by
  intro t ht
  rcases List.mem_cons.1 ht with rfl | ht
  · exact hl
  · exact h t ht

theorem Spells.newline (hl : l.token = .newline) (h : Spells ts statements) :
    Spells (l :: ts) statements := by
  cases h with
  | blank hts => exact .blank (hts.cons hl)
  | lines hbefore hlines hafter => exact .lines (hbefore.cons hl) hlines hafter

/-- Statements on their lines, with line ends behind them. -/
theorem IsLines.spells {ends : List Lexeme} (h : IsLines ts statements) (hends : LineEnds ends) :
    Spells (ts ++ ends) statements :=
  .lines lineEnds_nil h hends

/-- One more statement on a line above the others. -/
theorem Spells.statement (hs : IsStatement ts s) (hl : l.token = .newline)
    (h : Spells rest later) : Spells (ts ++ l :: rest) (s :: later) := by
  cases h with
  | blank hrest => exact (IsLines.one hs).spells (hrest.cons hl)
  | lines hbefore hlines hafter =>
    have hmore := IsLines.more hs (List.cons_ne_nil l _) (hbefore.cons hl) hlines
    simpa using hmore.spells hafter

/-- What is read, with the tokens read before on the line, is what the grammar derives. -/
theorem spells_of_statementsFrom {before : List Lexeme} (hbefore : p.Behind before)
    (h : statementsFrom p ts = .ok statements) : Spells (before ++ ts) statements := by
  -- along the tokens, with the account of those that were read as the invariant
  induction ts generalizing p before statements with
  | nil =>
    rw [statementsFrom] at h
    split at h
    · next ended hp =>
      obtain rfl := Except.ok.inj h
      rw [List.append_nil]
      rcases hbefore.ending hp with ⟨rfl, rfl⟩ | ⟨s, hs, rfl⟩
      · exact .blank lineEnds_nil
      · simpa using (IsLines.one hs).spells lineEnds_nil
    · cases h
  | cons l ts ih =>
    by_cases hl : l.token = .newline
    · -- the line ends here, with a statement or without
      rw [statementsFrom, if_pos hl] at h
      split at h
      · next ended hp =>
        obtain ⟨more, hmore, rfl⟩ := map_eq_ok_iff.1 h
        have hrest : Spells ([] ++ ts) more := ih (p := .lineStart) rfl hmore
        rcases hbefore.ending hp with ⟨rfl, rfl⟩ | ⟨s, hs, rfl⟩
        · exact hrest.newline hl
        · exact hrest.statement hs hl
      · cases h
    · rw [statementsFrom, if_neg hl] at h
      split at h
      · next q hq =>
        rw [List.append_cons]
        exact ih (hbefore.next hq) h
      · cases h

/-- **Reading from position to position finds exactly what the grammar derives.** -/
theorem statementsFrom_eq_ok_iff :
    statementsFrom .lineStart ts = .ok statements ↔ Spells ts statements := by
  refine ⟨fun h => ?_, Spells.statementsFrom⟩
  have hwhole : Spells ([] ++ ts) statements := spells_of_statementsFrom (p := .lineStart) rfl h
  exact hwhole

/-- **Tokens spell one sketch at most.** -/
theorem Spells.unique {others : List Statement} (h : Spells ts statements)
    (h' : Spells ts others) : statements = others :=
  Except.ok.inj (h.statementsFrom.symm.trans h'.statementsFrom)

end Sketches

/-! ## Texts -/

section Texts

variable {ts : List Lexeme} {name : Ident}

/-- The names in a statement, a bare name that is a value apart. -/
def Statement.names : Statement → List Ident
  | node d => d.name :: d.block :: d.arguments.map (·.key)
  | chain c => c.endpoints.flatMap (fun e => e.node :: e.handle.toList)

/-- What holds of the tokens of every item of a list is found among the tokens of the list. -/
theorem Separated.exists_mem {α : Type} {separator : Token} {item : List Lexeme → α → Prop} {a : α}
    {as : List α} (h : Separated separator item ts as) (ha : a ∈ as) :
    ∃ us, item us a ∧ ∀ l ∈ us, l ∈ ts := by
  induction h with
  | @one us b hb =>
    obtain rfl := List.mem_singleton.1 ha
    exact ⟨us, hb, fun _ hl => hl⟩
  | @more us rest b bs between hb _ ih =>
    rcases List.mem_cons.1 ha with rfl | ha
    · exact ⟨us, hb, fun _ hl => List.mem_append_left _ hl⟩
    · obtain ⟨vs, hvs, hmem⟩ := ih ha
      exact ⟨vs, hvs, fun l hl => List.mem_append_right _ (List.mem_cons_of_mem _ (hmem l hl))⟩

theorem Listed.exists_mem {α : Type} {item : List Lexeme → α → Prop} {a : α} {as : List α}
    (h : Listed item ts as) (ha : a ∈ as) : ∃ us, item us a ∧ ∀ l ∈ us, l ∈ ts := by
  cases h with
  | nothing => cases ha
  | items h => exact h.exists_mem ha
  | trailing comma h =>
    obtain ⟨us, hus, hmem⟩ := h.exists_mem ha
    exact ⟨us, hus, fun l hl => List.mem_append_left _ (hmem l hl)⟩

theorem IsEndpoint.mem {e : Endpoint} (h : IsEndpoint ts e)
    (hname : name ∈ e.node :: e.handle.toList) : name.lexeme ∈ ts := by
  cases h with
  | bare node =>
    obtain rfl : name = node := by simpa using hname
    exact List.mem_singleton_self _
  | withHandle node handle dot hts =>
    subst hts
    rcases List.mem_cons.1 hname with rfl | hname
    · exact List.mem_cons_self ..
    · obtain rfl : name = handle := by simpa using hname
      simp

/-- The names in a statement are among its tokens. -/
theorem IsStatement.mem {s : Statement} (h : IsStatement ts s) (hname : name ∈ s.names) :
    name.lexeme ∈ ts := by
  cases h with
  | node h =>
    cases h with
    | declaration closing hhead hargs hts =>
      subst hts
      cases hhead with
      | head first block equals opening =>
        rcases List.mem_cons.1 hname with rfl | hname
        · simp
        rcases List.mem_cons.1 hname with rfl | hname
        · simp
        obtain ⟨a, ha, rfl⟩ := List.mem_map.1 hname
        obtain ⟨us, hus, hmem⟩ := hargs.exists_mem ha
        cases hus with
        | argument key equals hv => simp [hmem key.lexeme (List.mem_cons_self ..)]
  | chain h =>
    obtain ⟨e, he, hname⟩ := List.mem_flatMap.1 hname
    obtain ⟨us, hus, hmem⟩ := h.joined.exists_mem he
    exact hmem _ (hus.mem hname)

theorem Spells.mem {statements : List Statement} {s : Statement} (h : Spells ts statements)
    (hs : s ∈ statements) (hname : name ∈ s.names) : name.lexeme ∈ ts := by
  cases h with
  | blank _ => cases hs
  | @lines before us after _ _ hlines _ =>
    refine List.mem_append_left _ (List.mem_append_right _ ?_)
    induction hlines with
    | one h =>
      obtain rfl := List.mem_singleton.1 hs
      exact h.mem hname
    | more h _ _ _ ih =>
      rcases List.mem_cons.1 hs with rfl | hs
      · exact List.mem_append_left _ (List.mem_append_left _ (h.mem hname))
      · exact List.mem_append_right _ (ih hs)

theorem parse_eq_some_iff {source : String} {sketch : Sketch} :
    (parse source).sketch = some sketch ↔
      Spells (lex source).lexemes sketch.statements ∧
        sketch.span = coveredSpan source.utf8ByteSize (lex source).lexemes := by
  obtain ⟨statements, span⟩ := sketch
  rw [← statementsFrom_eq_ok_iff, parse_eq]
  cases statementsFrom .lineStart (lex source).lexemes <;> simp [eq_comm]

/-- **A text has a sketch iff the grammar derives its tokens**, whatever characters between them are
no tokens. The tokens then have one derivation, and the sketch is that derivation: its statements in
order, with its names, values and spans, under the bytes from the first to the last token. A name
is what the text has at its bytes, as a token and in the sketch. -/
theorem parse_follows_grammar (source : String) :
    ((parse source).sketch.isSome = true ↔
      ∃ statements, Spells (lex source).lexemes statements) ∧
    (∀ statements others, Spells (lex source).lexemes statements →
      Spells (lex source).lexemes others → statements = others) ∧
    (∀ sketch, (parse source).sketch = some sketch ↔
      Spells (lex source).lexemes sketch.statements ∧
        sketch.span = coveredSpan source.utf8ByteSize (lex source).lexemes) ∧
    (∀ lexeme ∈ (lex source).lexemes, ∀ name, lexeme.token = .ident name →
      Stands source.toList name.toList lexeme.span) ∧
    ∀ sketch, (parse source).sketch = some sketch → ∀ s ∈ sketch.statements, ∀ name ∈ s.names,
      name.lexeme ∈ (lex source).lexemes ∧ Stands source.toList name.name.toList name.span := by
  refine ⟨?_, fun _ _ h h' => h.unique h', fun _ => parse_eq_some_iff,
    fun _ hl _ hname => stands_of_ident hl hname, ?_⟩
  · rw [Option.isSome_iff_exists]
    constructor
    · rintro ⟨sketch, h⟩
      exact ⟨sketch.statements, (parse_eq_some_iff.1 h).1⟩
    · rintro ⟨statements, h⟩
      exact ⟨⟨statements, coveredSpan source.utf8ByteSize (lex source).lexemes⟩,
        parse_eq_some_iff.2 ⟨h, rfl⟩⟩
  · intro sketch h s hs name hname
    have hmem : name.lexeme ∈ (lex source).lexemes := (parse_eq_some_iff.1 h).1.mem hs hname
    exact ⟨hmem, stands_of_ident hmem rfl⟩

end Texts

end ShapeFlow.Sketch
