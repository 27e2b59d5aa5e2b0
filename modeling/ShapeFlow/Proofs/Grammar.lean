import ShapeFlow.Proofs.Position
import Mathlib.Data.List.Basic
import Mathlib.Data.List.Induction

/-!
# The grammar of sketches

Every rule of the grammar relates tokens to what they spell, spans included; a span runs from the
first to the last token of its part.

* `Sketch.Spells`: tokens that form a sketch, and the statements that they spell.
* `Sketch.Position.advance?_isStatement`: a statement of the grammar is read from position to
  position.
-/

namespace ShapeFlow.Sketch

/-- The token of a name at its place. -/
def Ident.lexeme (name : Ident) : Lexeme := ⟨.ident name.name, name.span⟩

/-- The bytes from the first to the last of some tokens. -/
def extent (ts : List Lexeme) : Span := coveredSpan 0 ts

section Rules

variable {α : Type}

/-- `item (separator item)*` -/
inductive Separated (separator : Token) (item : List Lexeme → α → Prop) :
    List Lexeme → List α → Prop where
  | one {ts : List Lexeme} {a : α} : item ts a → Separated separator item ts [a]
  | more {ts rest : List Lexeme} {a : α} {as : List α} (between : Span) :
      item ts a → Separated separator item rest as →
        Separated separator item (ts ++ ⟨separator, between⟩ :: rest) (a :: as)

/-- `(item (',' item)* ','?)?` -/
inductive Listed (item : List Lexeme → α → Prop) : List Lexeme → List α → Prop where
  | nothing : Listed item [] []
  | items {ts : List Lexeme} {as : List α} : Separated .comma item ts as → Listed item ts as
  | trailing {ts : List Lexeme} {as : List α} (comma : Span) :
      Separated .comma item ts as → Listed item (ts ++ [⟨.comma, comma⟩]) as

/-- `number`, as an item of a list. -/
inductive IsNumber : List Lexeme → Double → Prop where
  | number (x : Double) (span : Span) : IsNumber [⟨.number x, span⟩] x

/-- `value := number | text | ident | 'true' | 'false' | '[' (number (',' number)* ','?)? ']'` -/
inductive IsValue : List Lexeme → Value → Prop where
  | number (x : Double) (span : Span) : IsValue [⟨.number x, span⟩] (.number x span)
  | flag (b : Bool) (span : Span) : IsValue [⟨.flag b, span⟩] (.flag b span)
  | text (s : String) (span : Span) : IsValue [⟨.text s, span⟩] (.text s span)
  | name (s : String) (span : Span) : IsValue [⟨.ident s, span⟩] (.text s span)
  | numbers {ts inner : List Lexeme} {xs : List Double} (opening closing : Span) :
      Listed IsNumber inner xs →
        ts = ⟨.openBracket, opening⟩ :: (inner ++ [⟨.closeBracket, closing⟩]) →
          IsValue ts (.numbers xs (extent ts))

/-- `argument := ident '=' value` -/
inductive IsArgument : List Lexeme → Argument → Prop where
  | argument {ts : List Lexeme} {value : Value} (key : Ident) (equals : Span) :
      IsValue ts value → IsArgument (key.lexeme :: ⟨.equals, equals⟩ :: ts) ⟨key, value⟩

/-- `ident '=' ident '('`, the beginning of a declaration. -/
inductive IsHead : List Lexeme → Head → Prop where
  | head (name block : Ident) (equals opening : Span) :
      IsHead [name.lexeme, ⟨.equals, equals⟩, block.lexeme, ⟨.openParen, opening⟩] ⟨name, block⟩

/-- `declaration := ident '=' ident '(' (argument (',' argument)* ','?)? ')'` -/
inductive IsDeclaration : List Lexeme → Declaration → Prop where
  | declaration {ts start inner : List Lexeme} {head : Head} {arguments : List Argument}
      (closing : Span) :
      IsHead start head → Listed IsArgument inner arguments →
        ts = start ++ inner ++ [⟨.closeParen, closing⟩] →
          IsDeclaration ts ⟨head.name, head.block, arguments, extent ts⟩

/-- `endpoint := ident ('.' ident)?` -/
inductive IsEndpoint : List Lexeme → Endpoint → Prop where
  | bare (node : Ident) : IsEndpoint [node.lexeme] ⟨node, none, extent [node.lexeme]⟩
  | withHandle {ts : List Lexeme} (node handle : Ident) (dot : Span) :
      ts = [node.lexeme, ⟨.dot, dot⟩, handle.lexeme] → IsEndpoint ts ⟨node, some handle, extent ts⟩

/-- `chain := endpoint ('->' endpoint)+` -/
structure IsChain (ts : List Lexeme) (c : Chain) : Prop where
  joined : Separated .arrow IsEndpoint ts c.endpoints
  several : 1 < c.endpoints.length
  span : c.span = extent ts

/-- `statement := declaration | chain` -/
inductive IsStatement : List Lexeme → Statement → Prop where
  | node {ts : List Lexeme} {d : Declaration} : IsDeclaration ts d → IsStatement ts (.node d)
  | chain {ts : List Lexeme} {c : Chain} : IsChain ts c → IsStatement ts (.chain c)

/-- `newline*` -/
def LineEnds (ts : List Lexeme) : Prop := ∀ t ∈ ts, t.token = .newline

/-- `statement (newline+ statement)*` -/
inductive IsLines : List Lexeme → List Statement → Prop where
  | one {ts : List Lexeme} {s : Statement} : IsStatement ts s → IsLines ts [s]
  | more {ts ends rest : List Lexeme} {s : Statement} {ss : List Statement} :
      IsStatement ts s → ends ≠ [] → LineEnds ends → IsLines rest ss →
        IsLines (ts ++ ends ++ rest) (s :: ss)

/-- `sketch := newline* (statement (newline+ statement)*)? newline*` -/
inductive Spells : List Lexeme → List Statement → Prop where
  | blank {ts : List Lexeme} : LineEnds ts → Spells ts []
  | lines {before ts after : List Lexeme} {ss : List Statement} :
      LineEnds before → IsLines ts ss → LineEnds after → Spells (before ++ ts ++ after) ss

end Rules

/-! ## Lists of items -/

section Items

variable {α : Type} {separator : Token} {item : List Lexeme → α → Prop} {ts us : List Lexeme}
  {a : α} {as : List α}

/-- One more item behind the others. -/
theorem Separated.snoc (between : Span) (h : Separated separator item ts as) (ha : item us a) :
    Separated separator item (ts ++ ⟨separator, between⟩ :: us) (as ++ [a]) := by
  induction h with
  | one hb => exact .more between hb (.one ha)
  | more other hb _ ih =>
    rw [List.append_assoc, List.cons_append, List.cons_append]
    exact .more other hb ih

theorem Separated.ne_nil (h : Separated separator item ts as) : as ≠ [] := by
  cases h with
  | one _ => simp
  | more between _ _ => simp

/-- A list of items without a last separator has at least one item, and so a token. -/
theorem Separated.tokens_ne_nil (hitem : ∀ us a, item us a → us ≠ [])
    (h : Separated separator item ts as) : ts ≠ [] := by
  cases h with
  | one ha => exact hitem _ _ ha
  | more between _ _ => simp

/-- What stands behind an opening bracket or behind a comma: nothing, or items each of which has a
comma behind it. -/
def Pending (item : List Lexeme → α → Prop) (ts : List Lexeme) (as : List α) : Prop :=
  ts = [] ∧ as = [] ∨
    ∃ items comma, ts = items ++ [⟨.comma, comma⟩] ∧ Separated .comma item items as

/-- The next item behind a bracket or a comma. -/
theorem Pending.snoc (h : Pending item ts as) (ha : item us a) :
    Separated .comma item (ts ++ us) (as ++ [a]) := by
  rcases h with ⟨rfl, rfl⟩ | ⟨items, comma, rfl, hitems⟩
  · exact .one ha
  · rw [List.append_assoc, List.singleton_append]
    exact hitems.snoc comma ha

theorem Pending.listed (h : Pending item ts as) : Listed item ts as := by
  rcases h with ⟨rfl, rfl⟩ | ⟨items, comma, rfl, hitems⟩
  · exact .nothing
  · exact .trailing comma hitems

/-- A list of items with a comma behind it waits for another item or for its end. -/
theorem Separated.pending (comma : Span) (h : Separated .comma item ts as) :
    Pending item (ts ++ [⟨.comma, comma⟩]) as :=
  Or.inr ⟨ts, comma, rfl, h⟩

end Items

/-! ## Spans -/

section Spans

variable {ts us : List Lexeme} {a b : Lexeme}

theorem extent_cons_append (a b : Lexeme) (ts : List Lexeme) :
    extent (a :: (ts ++ [b])) = ⟨a.span.start, b.span.stop⟩ := by
  rw [extent, coveredSpan, ← List.cons_append, List.getLast?_concat]
  rfl

/-- The extent of tokens begins with the first one. -/
theorem start_extent_append (h : ts ≠ []) : (extent (ts ++ us)).start = (extent ts).start := by
  obtain ⟨first, rest, rfl⟩ := List.exists_cons_of_ne_nil h
  simp [coveredSpan, extent, List.getLast?_cons]

theorem stop_extent_append (h : us ≠ []) : (extent (ts ++ us)).stop = (extent us).stop := by
  obtain ⟨first, rest, rfl⟩ := List.exists_cons_of_ne_nil h
  obtain ⟨last, hlast⟩ : ∃ last, (first :: rest).getLast? = some last :=
    ⟨_, List.getLast?_eq_some_getLast (by simp)⟩
  cases ts <;> simp [coveredSpan, extent, hlast, List.getLast?_cons]

theorem IsEndpoint.span {e : Endpoint} (h : IsEndpoint ts e) : ts ≠ [] ∧ e.span = extent ts := by
  cases h with
  | bare node => simp
  | withHandle node handle dot hts => simp [hts]

/-- Endpoints cover the bytes from the start of the first to the stop of the last. -/
theorem Separated.extent_endpoints {es : List Endpoint} {first last : Endpoint}
    (h : Separated .arrow IsEndpoint ts es) (hfirst : es.head? = some first)
    (hlast : es.getLast? = some last) : extent ts = ⟨first.span.start, last.span.stop⟩ := by
  induction h generalizing first with
  | @one ts e he =>
    obtain ⟨-, hspan⟩ := he.span
    obtain rfl : e = first := by simpa using hfirst
    obtain rfl : e = last := by simpa using hlast
    rw [hspan]
  | @more ts rest e es between he hrest ih =>
    obtain ⟨hne, hspan⟩ := he.span
    obtain rfl : e = first := by simpa using hfirst
    obtain ⟨second, others, rfl⟩ := List.exists_cons_of_ne_nil hrest.ne_nil
    have htail : extent rest = ⟨second.span.start, last.span.stop⟩ := by
      refine ih rfl ?_
      rwa [List.getLast?_cons_cons] at hlast
    have hrestne : rest ≠ [] := hrest.tokens_ne_nil fun _ _ h => h.span.1
    have hstart := @start_extent_append ts (⟨.arrow, between⟩ :: rest) hne
    have hstop : (extent (ts ++ ⟨.arrow, between⟩ :: rest)).stop = (extent rest).stop := by
      rw [List.append_cons]
      exact stop_extent_append hrestne
    rw [hspan, ← hstart, ← (congrArg Span.stop htail : (extent rest).stop = _), ← hstop]

end Spans

/-! ## What a derivation is read as -/

namespace Position

variable {p q r : Position} {ts us : List Lexeme} {l : Lexeme}

/-- The position behind some tokens, none of which is a line end. -/
def advance? (p : Position) (ts : List Lexeme) : Option Position := ts.foldlM next? p

@[simp] theorem advance?_nil : p.advance? [] = some p := rfl

@[simp] theorem advance?_cons : p.advance? (l :: ts) = (p.next? l).bind (·.advance? ts) := rfl

theorem advance?_append : p.advance? (ts ++ us) = (p.advance? ts).bind (·.advance? us) :=
  List.foldlM_append

theorem advance?_trans (h : p.advance? ts = some q) (hu : q.advance? us = some r) :
    p.advance? (ts ++ us) = some r := by
  rw [advance?_append, h]
  exact hu

/-- The position behind a later endpoint of a chain. -/
def later (endpoints : List Endpoint) (e : Endpoint) : Position :=
  match e.handle with
  | none => laterName endpoints e.node
  | some _ => laterHandle endpoints e

variable {head : Head} {arguments : List Argument} {key : Ident} {endpoints : List Endpoint}

/-- A number leads from the place of an item to the end of that item. -/
theorem advance?_isNumber {x : Double} {start : Nat} {items : List Double} (h : IsNumber ts x) :
    (item head arguments key start items).advance? ts =
      some (itemEnd head arguments key start (x :: items)) := by
  cases h
  rfl

/-- Numbers are collected in reverse order. -/
theorem advance?_numbers {xs items : List Double} {start : Nat}
    (h : Separated .comma IsNumber ts xs) :
    (item head arguments key start items).advance? ts =
      some (itemEnd head arguments key start (xs.reverse ++ items)) := by
  induction h generalizing items with
  | one hx => exact advance?_isNumber hx
  | @more ts rest x xs comma hx _ ih =>
    refine advance?_trans (advance?_isNumber hx) ?_
    rw [List.reverse_cons, List.append_assoc, List.singleton_append]
    exact ih

/-- Numbers with commas between them lead from the opening bracket to the end of the argument. -/
theorem advance?_closeBracket {xs : List Double} (opening closing : Span)
    (h : Listed IsNumber ts xs) :
    (item head arguments key opening.start []).advance? (ts ++ [⟨.closeBracket, closing⟩]) =
      some (argumentEnd head
        (⟨key, .numbers xs ⟨opening.start, closing.stop⟩⟩ :: arguments)) := by
  cases h with
  | nothing => rfl
  | items h =>
    refine advance?_trans (advance?_numbers h) ?_
    simp [next?]
  | trailing comma h =>
    refine advance?_trans (advance?_trans (advance?_numbers h) rfl) ?_
    simp [next?]

theorem advance?_isValue {v : Value} (h : IsValue ts v) :
    (value head arguments key).advance? ts = some (argumentEnd head (⟨key, v⟩ :: arguments)) := by
  cases h with
  | number => rfl
  | flag => rfl
  | text => rfl
  | name => rfl
  | numbers opening closing hxs hts =>
    rw [hts, extent_cons_append]
    exact advance?_closeBracket opening closing hxs

/-- An argument leads from its place to the end of it, with the argument noted. -/
theorem advance?_isArgument {a : Argument} (h : IsArgument ts a) :
    (argument head arguments).advance? ts = some (argumentEnd head (a :: arguments)) := by
  cases h with
  | argument key equals hv => exact advance?_isValue hv

/-- Arguments are collected in reverse order. -/
theorem advance?_arguments {as : List Argument} (h : Separated .comma IsArgument ts as) :
    (argument head arguments).advance? ts = some (argumentEnd head (as.reverse ++ arguments)) := by
  induction h generalizing arguments with
  | one ha => exact advance?_isArgument ha
  | @more ts rest a as comma ha _ ih =>
    refine advance?_trans (advance?_isArgument ha) ?_
    rw [List.reverse_cons, List.append_assoc, List.singleton_append]
    exact ih

/-- Arguments with commas between them lead from the opening parenthesis to the end of the
declaration. -/
theorem advance?_closeParen {as : List Argument} (head : Head) (closing : Span)
    (h : Listed IsArgument ts as) :
    (argument head []).advance? (ts ++ [⟨.closeParen, closing⟩]) =
      some (declarationEnd
        ⟨head.name, head.block, as, ⟨head.name.span.start, closing.stop⟩⟩) := by
  cases h with
  | nothing => rfl
  | items h =>
    refine advance?_trans (advance?_arguments h) ?_
    simp [next?]
  | trailing comma h =>
    refine advance?_trans (advance?_trans (advance?_arguments h) rfl) ?_
    simp [next?]

theorem advance?_isDeclaration {d : Declaration} (h : IsDeclaration ts d) :
    lineStart.advance? ts = some (declarationEnd d) := by
  cases h with
  | @declaration _ inner _ _ closing hhead hargs hts =>
    cases hhead with
    | head name block equals opening =>
      rw [hts, List.append_assoc]
      have hextent := extent_cons_append name.lexeme ⟨.closeParen, closing⟩
        (⟨.equals, equals⟩ :: block.lexeme :: ⟨.openParen, opening⟩ :: inner)
      simp only [List.cons_append, List.nil_append] at hextent ⊢
      rw [hextent]
      exact advance?_closeParen ⟨name, block⟩ closing hargs

theorem advance?_firstEndpoint {e : Endpoint} (between : Span) (h : IsEndpoint ts e) :
    lineStart.advance? (ts ++ [⟨.arrow, between⟩]) = some (arrow [e]) := by
  cases h with
  | bare node => rfl
  | withHandle node handle dot hts =>
    subst hts
    rfl

theorem advance?_laterEndpoint {e : Endpoint} (h : IsEndpoint ts e) :
    (arrow endpoints).advance? ts = some (later endpoints e) := by
  cases h with
  | bare node => rfl
  | withHandle node handle dot hts =>
    subst hts
    rfl

theorem next?_later {e : Endpoint} (between : Span) (h : IsEndpoint ts e) :
    (later endpoints e).next? ⟨.arrow, between⟩ = some (arrow (e :: endpoints)) := by
  cases h <;> rfl

theorem ending?_later {e : Endpoint} (h : IsEndpoint ts e) :
    (later endpoints e).ending? = some [.chain (.ofReverse endpoints e)] := by
  cases h <;> rfl

/-- Endpoints are collected in reverse order, the last one apart. -/
theorem advance?_endpoints {es : List Endpoint} (endpoints : List Endpoint)
    (h : Separated .arrow IsEndpoint ts es) :
    ∃ before us last, es = before ++ [last] ∧ IsEndpoint us last ∧
      (arrow endpoints).advance? ts = some (later (before.reverse ++ endpoints) last) := by
  induction h generalizing endpoints with
  | @one ts e he => exact ⟨[], ts, e, rfl, he, advance?_laterEndpoint he⟩
  | @more ts rest e es between he _ ih =>
    obtain ⟨before, us, last, hes, hlast, hrest⟩ := ih (e :: endpoints)
    refine ⟨e :: before, us, last, by rw [hes, List.cons_append], hlast, ?_⟩
    refine advance?_trans (advance?_laterEndpoint he) ?_
    rw [advance?_cons, next?_later between he, List.reverse_cons, List.append_assoc,
      List.singleton_append]
    exact hrest

/-- A chain leads from the start of a line to a position where the line may end with this chain. -/
theorem advance?_isChain {c : Chain} (h : IsChain ts c) :
    ∃ p, lineStart.advance? ts = some p ∧ p.ending? = some [.chain c] := by
  obtain ⟨hjoined, hseveral, hspan⟩ := h
  obtain ⟨endpoints, span⟩ := c
  dsimp only at hjoined hseveral hspan
  cases hjoined with
  | one _ => exact absurd hseveral (by simp)
  | @more ts rest e es between he hrest =>
    obtain ⟨before, us, last, rfl, hlast, hadvance⟩ := advance?_endpoints [e] hrest
    have hwhole : Separated .arrow IsEndpoint (ts ++ ⟨.arrow, between⟩ :: rest)
        (e :: (before ++ [last])) := .more between he hrest
    -- the span of the chain is that of its tokens, from the first endpoint to the last
    have hextent := hwhole.extent_endpoints rfl
      (by rw [← List.cons_append, List.getLast?_concat])
    refine ⟨later (before.reverse ++ [e]) last, ?_, ?_⟩
    · rw [List.append_cons]
      exact advance?_trans (advance?_firstEndpoint between he) hadvance
    · rw [ending?_later hlast, hspan, hextent]
      simp [Chain.ofReverse]

/-- **A statement is read to a position where a line may end**, with the statement in hand. -/
theorem advance?_isStatement {s : Statement} (h : IsStatement ts s) :
    ∃ p, lineStart.advance? ts = some p ∧ p.ending? = some [s] := by
  cases h with
  | node h => exact ⟨_, advance?_isDeclaration h, rfl⟩
  | chain h => exact advance?_isChain h

theorem next?_newline (h : l.token = .newline) : p.next? l = none := by
  obtain ⟨token, span⟩ := l
  obtain rfl : token = .newline := h
  cases p <;> rfl

end Position

/-! ## Reading on -/

section Reading

open Position

variable {p q : Position} {ts us : List Lexeme} {l : Lexeme} {statements : List Statement}

theorem statementsFrom_newline (hl : l.token = .newline) (hp : p.ending? = some statements) :
    statementsFrom p (l :: ts) = (statementsFrom .lineStart ts).map (statements ++ ·) := by
  rw [statementsFrom, if_pos hl, hp]

theorem statementsFrom_next (hq : p.next? l = some q) :
    statementsFrom p (l :: ts) = statementsFrom q ts := by
  have hl : ¬ l.token = .newline := by
    intro hl
    rw [next?_newline hl] at hq
    cases hq
  rw [statementsFrom, if_neg hl, hq]

/-- **Tokens that lead to a position are read by going on from there.** -/
theorem statementsFrom_advance (hq : p.advance? ts = some q) :
    statementsFrom p (ts ++ us) = statementsFrom q us := by
  induction ts generalizing p with
  | nil =>
    obtain rfl : p = q := Option.some.inj hq
    rfl
  | cons l ts ih =>
    rw [advance?_cons, Option.bind_eq_some_iff] at hq
    obtain ⟨r, hr, hq⟩ := hq
    rw [List.cons_append, statementsFrom_next hr, ih hq]

/-- Line ends spell nothing. -/
theorem statementsFrom_lineEnds (h : LineEnds ts) :
    statementsFrom .lineStart (ts ++ us) = statementsFrom .lineStart us := by
  induction ts with
  | nil => rfl
  | cons l ts ih =>
    rw [List.cons_append, statementsFrom_newline (h l (List.mem_cons_self ..)) rfl,
      ih fun t ht => h t (List.mem_cons_of_mem _ ht)]
    cases statementsFrom .lineStart us <;> rfl

end Reading

end ShapeFlow.Sketch
