import ShapeFlow.Proofs.Combinator

/-!
# The parsers read from position to position

The parsers of the grammar go back where an alternative fails. Positions never do: they know at
every token what may follow. Both find the same statements, and where there are none, the furthest
misses are what may follow at the position where reading stops.

* `Sketch.parse_eq`: **a text is parsed as its tokens are read from position to position.**
-/

namespace ShapeFlow.Sketch

open Position

variable {p q : Position} {others : List Token} {us ts rest : List Lexeme} {size : Nat}
  {head : Head} {arguments : List Argument} {key : Ident}

/-! ## Declarations -/

section Declarations

theorem coveredSpan_eq_extent (h : us ≠ []) : coveredSpan size us = extent us := by
  obtain ⟨first, us, rfl⟩ := List.exists_cons_of_ne_nil h
  simp [extent, coveredSpan, List.getLast?_cons]

/-- A name at its place. -/
def IsIdent (ts : List Lexeme) (name : Ident) : Prop := ts = [name.lexeme]

theorem ends_ident (hothers : ∀ name, .ident name ∉ others)
    (hrefuse : ∀ l : Lexeme, (∀ name, l.token ≠ .ident name) →
      p.next? l = none ∨ l.token ∈ others)
    (hexpected : .token "<ident>" :: others.map (fun t => .token t.render) = p.expectations)
    (size : Nat) (ts : List Lexeme) : Ends IsIdent p others ts (Parser.ident size ts) := by
  refine ends_one ?_ ?_ hexpected size ts
  · rintro ⟨token, span⟩ name h
    cases token with
    | ident s =>
      obtain rfl := Option.some.inj h
      exact ⟨rfl, hothers s⟩
    | _ => cases h
  · rintro ⟨token, span⟩ h
    cases token with
    | ident s => cases h
    | _ => exact hrefuse _ (by simp)

theorem ends_number {start : Nat} {items : List Double} (size : Nat) (ts : List Lexeme) :
    Ends IsNumber (item head arguments key start items) [.closeBracket] ts
      (Parser.number size ts) := by
  refine ends_one ?_ ?_ rfl size ts
  · rintro ⟨token, span⟩ x h
    cases token with
    | number y =>
      obtain rfl := Option.some.inj h
      exact ⟨.number y span, by simp⟩
    | _ => cases h
  · rintro ⟨token, span⟩ h
    cases token with
    | number y => cases h
    | closeBracket => exact Or.inr (by simp)
    | _ => exact Or.inl rfl

theorem encloses_numbers (head : Head) (arguments : List Argument) (key : Ident) (start : Nat) :
    Encloses IsNumber .closeBracket (item head arguments key start)
      (itemEnd head arguments key start) where
  item _ _ _ h := advance?_isNumber h
  comma _ _ := rfl
  stops := by
    rintro _ ⟨token, span⟩ hcomma hclose
    cases token with
    | comma => exact absurd rfl hcomma
    | closeBracket => exact absurd rfl hclose
    | _ => rfl
  expects _ := rfl
  unfinished _ := ⟨rfl, rfl⟩

theorem encloses_arguments (head : Head) :
    Encloses IsArgument .closeParen (argument head) (argumentEnd head) where
  item _ _ _ h := advance?_isArgument h
  comma _ _ := rfl
  stops := by
    rintro _ ⟨token, span⟩ hcomma hclose
    cases token with
    | comma => exact absurd rfl hcomma
    | closeParen => exact absurd rfl hclose
    | _ => rfl
  expects _ := rfl
  unfinished _ := ⟨rfl, rfl⟩

/-- A list between its brackets. -/
def Delimited {α : Type} (D : List Lexeme → α → Prop) (opening close : Token) (ts : List Lexeme)
    (as : List α) : Prop :=
  ∃ span inner, Enclosed D close inner as ∧ ts = ⟨opening, span⟩ :: inner

/-- A list, if its opening bracket stands there. -/
theorem ends_delimitedBy {α : Type} {D : List Lexeme → α → Prop} {item : Parser α}
    {opening close : Token} {inside behind : List α → Position}
    (hlist : Encloses D close inside behind)
    (hitem : ∀ as size ts, Ends D (inside as) [close] ts (item size ts)) (span : Span)
    (hopening : p.next? ⟨opening, span⟩ = some (inside [])) (size : Nat) (ts : List Lexeme) :
    Ends (Delimited D opening close) p [] (⟨opening, span⟩ :: ts)
      ((item.separatedBy (.just .comma)).delimitedBy (.just opening) (.just close) size
        (⟨opening, span⟩ :: ts)) := by
  have hclosed := ends_separatedFrom hlist hitem size (ts.length + 1) [] ts (Nat.lt_succ_self _)
  have hadvance : p.advance? [⟨opening, span⟩] = some (inside []) := by simp [hopening]
  have hall : Ends (Delimited D opening close) p [] ([⟨opening, span⟩] ++ ts) _ :=
    hclosed.behind (g := id) (by simp) opens_nil hadvance (hlist.unfinished []).2 before_nil
      fun vs as has => ⟨span, vs, has, rfl⟩
  unfold Parser.delimitedBy
  rw [thenIgnore_eq, ignoreThen_eq]
  simpa [Parser.just, Parser.one, Parser.separatedBy] using hall

/-- A value is one token, or numbers in brackets. -/
theorem ends_value (size : Nat) (ts : List Lexeme) :
    Ends IsValue (value head arguments key) [] ts (Parser.value size ts) := by
  cases ts with
  | nil => exact .refused [.token "[", .somethingElse, .token "<ident>"] rfl (by simp)
  | cons l rest =>
    obtain ⟨token, span⟩ := l
    have hshort : ∀ expected : List Expectation,
        Before rest (expected.map fun e => (⟨⟨token, span⟩ :: rest, e⟩ : Miss)) := by
      intro expected m hm
      obtain ⟨e, -, rfl⟩ := List.mem_map.1 hm
      simp
    cases token with
    | number x =>
      exact .found [_] (.number x span) (by simp) opens_nil (hshort [.token "["])
    | flag b => exact .found [_] (.flag b span) (by simp) opens_nil (hshort [.token "["])
    | text s => exact .found [_] (.text s span) (by simp) opens_nil (hshort [.token "["])
    | ident s =>
      exact .found [_] (.name s span) (by simp) opens_nil
        (hshort [.token "[", .somethingElse])
    | openBracket =>
      have hopening : (value head arguments key).next? ⟨.openBracket, span⟩ =
          some (item head arguments key span.start []) := rfl
      have hlist := ends_delimitedBy (encloses_numbers head arguments key span.start)
        (fun _ => ends_number) span hopening size rest
      have hnumbers : Ends IsValue (value head arguments key) [] _ (Parser.numbers size _) :=
        hlist.mapWith fun us xs hne hxs => by
          obtain ⟨opening, inner, ⟨numbers, closing, hlisted, rfl⟩, rfl⟩ := hxs
          exact .numbers opening closing hlisted rfl
      rw [Parser.value, Parser.or]
      generalize Parser.numbers size _ = reply at hnumbers ⊢
      generalize hts : (⟨.openBracket, span⟩ :: rest : List Lexeme) = ts at hnumbers ⊢
      cases hnumbers with
      | found us hD hne hopens hbefore => exact .found us hD hne hopens hbefore
      | refused expected _ hstops =>
        -- the list takes its opening bracket
        rcases hstops ⟨.openBracket, span⟩ (by simp [← hts]) with hstop | hothers
        · rw [hopening] at hstop
          cases hstop
        · exact absurd hothers List.not_mem_nil
      | @stuck us rest q misses hne hopens hadvance hhalts hblames =>
        have hlong := length_lt_append hne rest
        have hothers : (Parser.literal.or (Parser.ident.map fun name => .text name.name name.span))
            size (us ++ rest) =
            ⟨none, [⟨us ++ rest, .somethingElse⟩, ⟨us ++ rest, .token "<ident>"⟩]⟩ := by
          rw [← hts]
          rfl
        rw [Reply.orElse_none, hothers, Reply.after_mk]
        exact .stuck us hne hopens hadvance hhalts
          (hblames.append (before_cons hlong (before_cons hlong before_nil)))
    | _ => exact .refused [.token "[", .somethingElse, .token "<ident>"] rfl (by simp [next?])

/-- A name with `=` behind it. -/
def IsKey (ts : List Lexeme) (name : Ident) : Prop :=
  ∃ equals, ts = [name.lexeme, ⟨.equals, equals⟩]

/-- An argument is a name, an equals sign and a value; the closing parenthesis may stand in its
place. -/
theorem ends_argument (size : Nat) (ts : List Lexeme) :
    Ends IsArgument (argument head arguments) [.closeParen] ts (Parser.argument size ts) := by
  have hname : Ends IsIdent (argument head arguments) [.closeParen] ts (Parser.ident size ts) := by
    refine ends_ident (by simp) ?_ rfl size ts
    rintro ⟨token, span⟩ hident
    cases token with
    | ident name => exact absurd rfl (hident name)
    | closeParen => exact Or.inr (by simp)
    | _ => exact Or.inl rfl
  have hequals : ∀ name rest, Ends (IsToken .equals) (Position.key head arguments name) [] rest
      (Parser.just .equals size rest) := by
    refine fun name => ends_just ?_ rfl size
    rintro ⟨token, span⟩ hother
    cases token with
    | equals => exact absurd rfl hother
    | _ => rfl
  have hkey : Ends IsKey (argument head arguments) [.closeParen] ts
      ((Parser.ident.thenIgnore (.just .equals)) size ts) := by
    refine hname.thenIgnore hequals ?_ (fun _ => rfl) ?_
    · rintro _ name rfl
      rfl
    · rintro _ name _ ⟨_, span⟩ rfl ⟨rfl, rfl⟩
      exact ⟨span, rfl⟩
  have hpair := hkey.andThen (κ := Position.value head arguments)
    (F := fun us a => IsArgument us ⟨a.1, a.2⟩) (fun _ => ends_value size) ?_ (fun _ => rfl) ?_
  · exact hpair.map fun _ _ h => h
  · rintro _ name ⟨equals, rfl⟩
    rfl
  · rintro _ name us v ⟨equals, rfl⟩ hv
    exact .argument name equals hv

theorem ends_arguments (size : Nat) (ts : List Lexeme) :
    Ends (Delimited IsArgument .openParen .closeParen) (blockName head) [] ts
      (Parser.arguments size ts) := by
  rcases just_cases .openParen size ts with ⟨span, rest, rfl, -⟩ | ⟨hnone, hopening⟩
  · exact ends_delimitedBy (encloses_arguments head) (fun _ => ends_argument) span rfl size rest
  · rw [Parser.arguments, Parser.delimitedBy, thenIgnore_eq, ignoreThen_eq, hopening]
    refine .refused [.token "("] rfl fun l hl => Or.inl ?_
    obtain ⟨token, span⟩ := l
    cases token with
    | openParen => exact absurd rfl (hnone _ hl)
    | _ => rfl

/-- A declaration behind its name and `=`. -/
theorem ends_declaration (name : Ident) (equals : Span) (size : Nat) (rest : List Lexeme) :
    Ends (fun us s => ∃ d, s = .node d ∧ IsDeclaration us d) lineStart []
      (name.lexeme :: ⟨.equals, equals⟩ :: rest)
      (Parser.declaration size (name.lexeme :: ⟨.equals, equals⟩ :: rest)) := by
  have hkey : Ends IsKey lineStart [] (name.lexeme :: ⟨.equals, equals⟩ :: rest)
      ((Parser.ident.thenIgnore (.just .equals)) size
        (name.lexeme :: ⟨.equals, equals⟩ :: rest)) :=
    .found [name.lexeme, ⟨.equals, equals⟩] ⟨equals, rfl⟩ (by simp) opens_nil before_nil
  have hblock : ∀ name rest, Ends IsIdent (declared name) [] rest (Parser.ident size rest) := by
    refine fun name => ends_ident (by simp) ?_ rfl size
    rintro ⟨token, span⟩ hident
    cases token with
    | ident block => exact absurd rfl (hident block)
    | _ => exact Or.inl rfl
  have hhead := hkey.andThen hblock (F := fun us pair => ∃ equals,
    us = [pair.1.lexeme, ⟨.equals, equals⟩, pair.2.lexeme]) ?_ (fun _ => rfl) ?_
  · have hall := hhead.andThen (κ := fun pair => blockName ⟨pair.1, pair.2⟩)
      (F := fun us triple => ∃ start inner closing, IsHead start ⟨triple.1.1, triple.1.2⟩ ∧
        Listed IsArgument inner triple.2 ∧ us = start ++ inner ++ [⟨.closeParen, closing⟩])
      (fun _ => ends_arguments size) ?_ (fun _ => rfl) ?_
    · refine hall.mapWith fun us triple hne htriple => ?_
      obtain ⟨start, inner, closing, hhead, hlisted, rfl⟩ := htriple
      refine ⟨_, rfl, ?_⟩
      rw [coveredSpan_eq_extent hne]
      exact .declaration closing hhead hlisted rfl
    · rintro _ ⟨name, block⟩ ⟨equals, rfl⟩
      rfl
    · rintro _ ⟨name, block⟩ _ arguments ⟨equals, rfl⟩
        ⟨opening, _, ⟨inner, closing, hlisted, rfl⟩, rfl⟩
      exact ⟨_, inner, closing, .head name block equals opening, hlisted, rfl⟩
  · rintro _ name ⟨equals, rfl⟩
    rfl
  · rintro _ name _ block ⟨equals, rfl⟩ rfl
    exact ⟨equals, rfl⟩

end Declarations

/-! ## Chains -/

section Chains

variable {endpoints : List Endpoint} {limit : Nat}

/-- What the parser of an endpoint has looked for behind it. -/
def Endpoint.pending (e : Endpoint) : List Expectation :=
  match e.handle with
  | none => [.token "."]
  | some _ => []

/-- **What becomes of an endpoint**: there is no name; it is found, and what may follow it has been
looked for; or a point has no handle behind it, and the name is taken without the point. -/
inductive EndpointEnds : List Lexeme → Reply Endpoint → Prop where
  | refused {ts : List Lexeme} :
      (∀ l ∈ ts.head?, ∀ name, l.token ≠ .ident name) →
        EndpointEnds ts ⟨none, [⟨ts, .token "<ident>"⟩]⟩
  | found (us : List Lexeme) {rest : List Lexeme} {e : Endpoint} {misses : List Miss} :
      IsEndpoint us e → (e.handle = none → ∀ l ∈ rest.head?, l.token ≠ .dot) →
        UpTo rest misses → notedAt rest misses = e.pending →
          EndpointEnds (us ++ rest) ⟨some (e, rest), misses⟩
  | cut {rest : List Lexeme} (node : Ident) (dot : Span) :
      (∀ l ∈ rest.head?, ∀ name, l.token ≠ .ident name) →
        EndpointEnds (node.lexeme :: ⟨.dot, dot⟩ :: rest)
          ⟨some (.bare node, ⟨.dot, dot⟩ :: rest), [⟨rest, .token "<ident>"⟩]⟩

/-- Whether a name stands there. -/
theorem ident_cases (size : Nat) (ts : List Lexeme) :
    (∃ name rest, ts = name.lexeme :: rest ∧ Parser.ident size ts = ⟨some (name, rest), []⟩) ∨
      (∀ l ∈ ts.head?, ∀ name, l.token ≠ .ident name) ∧
        Parser.ident size ts = ⟨none, [⟨ts, .token "<ident>"⟩]⟩ := by
  cases ts with
  | nil => exact Or.inr ⟨by simp, rfl⟩
  | cons l rest =>
    obtain ⟨token, span⟩ := l
    cases token with
    | ident name => exact Or.inl ⟨⟨name, span⟩, rest, rfl, rfl⟩
    | _ => exact Or.inr ⟨by simp, rfl⟩

theorem endpoint_ends (size : Nat) (ts : List Lexeme) :
    EndpointEnds ts (Parser.endpoint size ts) := by
  rcases ident_cases size ts with ⟨node, rest, rfl, hnode⟩ | ⟨hnone, hnode⟩
  · rcases just_cases .dot size rest with ⟨dot, behind, rfl, hdot⟩ | ⟨hbare, hdot⟩
    · rcases ident_cases size behind with ⟨handle, rest, rfl, hhandle⟩ | ⟨hcut, hhandle⟩
      · have hends : Parser.endpoint size ([node.lexeme, ⟨.dot, dot⟩, handle.lexeme] ++ rest) =
            ⟨some (.withHandle node handle, rest), []⟩ :=
          mapWith_found (a := (node, some handle))
            (by simp [Parser.andThen, Parser.orNot, ignoreThen_eq, hnode, hdot, hhandle])
        exact hends ▸ .found [node.lexeme, ⟨.dot, dot⟩, handle.lexeme]
          (.withHandle node handle dot rfl) (fun h => nomatch h) upTo_nil rfl
      · have hends : Parser.endpoint size ([node.lexeme] ++ ⟨.dot, dot⟩ :: behind) =
            ⟨some (.bare node, ⟨.dot, dot⟩ :: behind), [⟨behind, .token "<ident>"⟩]⟩ :=
          mapWith_found (a := (node, none))
            (by simp [Parser.andThen, Parser.orNot, ignoreThen_eq, hnode, hdot, hhandle])
        exact hends ▸ .cut node dot hcut
    · have hends : Parser.endpoint size ([node.lexeme] ++ rest) =
          ⟨some (.bare node, rest), [⟨rest, .token "."⟩]⟩ :=
        mapWith_found (a := (node, none))
          (by simp [Parser.andThen, Parser.orNot, ignoreThen_eq, hnode, hdot, Token.render])
      exact hends ▸ .found [node.lexeme] (.bare node) (fun _ => hbare) (upTo_here upTo_nil)
        notedAt_here
  · have hends : Parser.endpoint size ts = ⟨none, [⟨ts, .token "<ident>"⟩]⟩ :=
      mapWith_none (by simp [Parser.andThen, hnode])
    exact hends ▸ .refused hnone

/-- Endpoints, each with an arrow before it. -/
def Links (us : List Lexeme) (es : List Endpoint) : Prop :=
  ∀ vs front, Separated .arrow IsEndpoint vs front →
    Separated .arrow IsEndpoint (vs ++ us) (front ++ es)

theorem links_one {e : Endpoint} (between : Span) (h : IsEndpoint us e) :
    Links (⟨.arrow, between⟩ :: us) [e] := fun _ _ hfront => hfront.snoc between h

/-- Links one behind the other are links. -/
theorem Links.trans {es fs : List Endpoint} {vs : List Lexeme} (h : Links us es)
    (h' : Links vs fs) : Links (us ++ vs) (es ++ fs) := by
  intro ws front hfront
  rw [← List.append_assoc, ← List.append_assoc]
  exact h' _ _ (h ws front hfront)

/-- **What becomes of the links of a chain**, from a position that an arrow leads on from: there is
no arrow; there are links, and what may follow the last has been looked for; or the last one is cut
off, and the tokens left begin with its arrow or its point. -/
inductive LinksEnd (p : Position) (endpoints : List Endpoint) :
    List Lexeme → Reply (List Endpoint) → Prop where
  | none {ts : List Lexeme} : (∀ l ∈ ts.head?, l.token ≠ .arrow) →
      LinksEnd p endpoints ts ⟨some ([], ts), [⟨ts, .token "->"⟩]⟩
  | found (us : List Lexeme) (front : List Endpoint) {rest : List Lexeme} {e : Endpoint}
      {misses : List Miss} : us ≠ [] → Links us (front ++ [e]) →
      p.advance? us = some (later (front.reverse ++ endpoints) e) →
      (∀ l ∈ rest.head?, (later (front.reverse ++ endpoints) e).next? l = none) →
      UpTo rest misses → notedAt rest misses = e.pending ++ [.token "->"] →
        LinksEnd p endpoints (us ++ rest) ⟨some (front ++ [e], rest), misses⟩
  | cut (us : List Lexeme) {rest after : List Lexeme} {q : Position} {l : Lexeme}
      {es : List Endpoint} {misses : List Miss} : us ≠ [] → p.advance? us = some q →
      Halts q rest → Blames misses rest q → l.token = .arrow ∨ l.token = .dot →
      rest.length < (l :: after).length →
        LinksEnd p endpoints (us ++ rest) ⟨some (es, l :: after), misses⟩

theorem link_arrow (between : Span) :
    Parser.link size (⟨.arrow, between⟩ :: ts) = Parser.endpoint size ts := by
  rw [Parser.link, ignoreThen_eq]
  simp [Parser.just, Parser.one]

/-- Where no arrow follows, the links of a chain end, and an arrow has been looked for. -/
theorem links_none (h : ∀ l ∈ ts.head?, l.token ≠ .arrow) :
    Parser.link.repeatedFrom size (limit + 1) ts = ⟨some ([], ts), [⟨ts, .token "->"⟩]⟩ := by
  have hlink : Parser.link size ts = ⟨none, [⟨ts, .token "->"⟩]⟩ := by
    rcases just_cases .arrow size ts with ⟨span, rest, rfl, -⟩ | ⟨-, harrow⟩
    · exact absurd rfl (h _ rfl)
    · rw [Parser.link, ignoreThen_eq, harrow]
      rfl
  rw [Parser.repeatedFrom, hlink]

/-- The positions behind an arrow or a point, where only a name leads on. -/
inductive Position.AwaitsName : Position → Prop where
  | arrow (endpoints : List Endpoint) : AwaitsName (.arrow endpoints)
  | firstDot (node : Ident) : AwaitsName (.firstDot node)
  | laterDot (endpoints : List Endpoint) (node : Ident) : AwaitsName (.laterDot endpoints node)

theorem Position.AwaitsName.halts (hq : q.AwaitsName)
    (h : ∀ l ∈ rest.head?, ∀ name, l.token ≠ .ident name) : Halts q rest := by
  refine ⟨by cases hq <;> rfl, ?_⟩
  rintro ⟨token, span⟩ hl
  cases token with
  | ident name => exact absurd rfl (h _ hl name)
  | _ => cases hq <;> rfl

/-- Behind an endpoint only an arrow leads on, or a dot if the endpoint has no handle yet. -/
theorem later_stops {e : Endpoint} (l : Lexeme) (harrow : l.token ≠ .arrow)
    (hdot : e.handle = none → l.token ≠ .dot) : (later endpoints e).next? l = none := by
  obtain ⟨token, span⟩ := l
  obtain ⟨node, _ | handle, bytes⟩ := e
  · cases token with
    | arrow => exact absurd rfl harrow
    | dot => exact absurd rfl (hdot rfl)
    | _ => rfl
  · cases token with
    | arrow => exact absurd rfl harrow
    | _ => rfl

theorem links_end (size limit : Nat) (endpoints : List Endpoint) (p : Position) (ts : List Lexeme)
    (harrow : ∀ between, p.next? ⟨.arrow, between⟩ = some (arrow endpoints))
    (hlimit : ts.length < limit) :
    LinksEnd p endpoints ts (Parser.link.repeatedFrom size limit ts) := by
  -- link by link; behind a link the others are those from its endpoint on
  induction limit generalizing endpoints p ts with
  | zero => omega
  | succ limit ih =>
    rcases just_cases .arrow size ts with ⟨between, rest, rfl, -⟩ | ⟨hnone, -⟩
    · have hends := endpoint_ends size rest
      unfold Parser.repeatedFrom
      rw [link_arrow]
      generalize Parser.endpoint size rest = reply at hends ⊢
      cases hends with
      | refused hident =>
        have hhalts := (AwaitsName.arrow endpoints).halts hident
        exact .cut [⟨.arrow, between⟩] (by simp) (by simp [harrow]) hhalts
          ⟨upTo_here upTo_nil, by rw [notedAt_here]; rfl⟩ (Or.inl rfl) (by simp)
      | @found us rest e misses he hdot hmisses hnoted =>
        have hlater : p.advance? (⟨.arrow, between⟩ :: us) = some (later endpoints e) := by
          rw [advance?_cons, harrow]
          exact advance?_laterEndpoint he
        have hlinks := links_one between he
        have hfewer : rest.length < limit := by
          rw [List.length_cons, List.length_append] at hlimit
          omega
        have hrest := ih (e :: endpoints) (later endpoints e) rest
          (fun between => next?_later between he) hfewer
        dsimp only
        generalize Parser.link.repeatedFrom size limit rest = reply at hrest ⊢
        cases hrest with
        | none hnone =>
          rw [Reply.map_some, Reply.after_mk]
          exact .found (⟨.arrow, between⟩ :: us) [] (by simp) hlinks hlater
            (fun l hl => later_stops l (hnone l hl) fun hbare => hdot hbare l hl)
            (hmisses.append (upTo_here upTo_nil))
            (by rw [notedAt_append, hnoted, notedAt_here, notedAt_nil])
        | @found vs front rest last further hvs hmore hadvance hstops hfurther hlast =>
          have hbefore : Before rest misses :=
            hmisses.before (length_lt_append hvs rest)
          have hfront : front.reverse ++ e :: endpoints = (e :: front).reverse ++ endpoints := by
            simp
          rw [hfront] at hadvance hstops
          rw [Reply.map_some, Reply.after_mk, ← List.append_assoc, ← List.cons_append]
          exact .found (⟨.arrow, between⟩ :: us ++ vs) (e :: front) (by simp)
            (hlinks.trans hmore) (advance?_trans hlater hadvance) hstops
            (hbefore.upTo.append hfurther)
            (by rw [notedAt_append, hbefore.notedAt, List.nil_append, hlast])
        | @cut vs rest after q l es further hvs hadvance hhalts hblames hl hlong =>
          have hbefore : Before rest misses :=
            hmisses.before (length_lt_append hvs rest)
          rw [Reply.map_some, Reply.after_mk, ← List.append_assoc, ← List.cons_append]
          exact .cut (⟨.arrow, between⟩ :: us ++ vs) (by simp) (advance?_trans hlater hadvance)
            hhalts (hblames.behind hbefore) hl hlong
      | @cut rest node dot hident =>
        -- the links end at the point
        have hpoint : ∀ l ∈ (⟨.dot, dot⟩ :: rest : List Lexeme).head?, l.token ≠ .arrow := by simp
        obtain ⟨limit, rfl⟩ : ∃ fewer, limit = fewer + 1 := by
          rw [List.length_cons, List.length_cons] at hlimit
          exact Nat.exists_eq_succ_of_ne_zero (by omega)
        dsimp only
        rw [links_none hpoint, Reply.map_some, Reply.after_mk]
        have hadvance : p.advance? [⟨.arrow, between⟩, node.lexeme, ⟨.dot, dot⟩] =
            some (laterDot endpoints node) := by
          rw [advance?_cons, harrow]
          rfl
        have hhalts := (AwaitsName.laterDot endpoints node).halts hident
        have hblames : Blames [⟨rest, .token "<ident>"⟩] rest (laterDot endpoints node) :=
          ⟨upTo_here upTo_nil, by rw [notedAt_here]; rfl⟩
        exact .cut [⟨.arrow, between⟩, node.lexeme, ⟨.dot, dot⟩] (by simp) hadvance hhalts
          (hblames.append (before_cons (by simp) before_nil)) (Or.inr rfl) (by simp)
    · rw [links_none hnone]
      exact .none hnone

/-- The position behind the first endpoint of a chain. -/
def Position.first (e : Endpoint) : Position :=
  match e.handle with
  | none => firstName e.node
  | some _ => firstHandle e

theorem advance?_first {e : Endpoint} (h : IsEndpoint us e) :
    lineStart.advance? us = some (first e) := by
  cases h with
  | bare node => rfl
  | withHandle node handle dot hts =>
    subst hts
    rfl

theorem next?_first {e : Endpoint} (between : Span) (h : IsEndpoint us e) :
    (first e).next? ⟨.arrow, between⟩ = some (arrow [e]) := by
  cases h <;> rfl

/-- **What becomes of a statement**: there is no name; it is found, and what may follow it within
its line has been looked for; or reading stops further on, and either nothing is found or the tokens
left go on in the same line. -/
inductive StatementEnds : List Lexeme → Reply Statement → Prop where
  | refused {ts : List Lexeme} : (∀ l ∈ ts.head?, ∀ name, l.token ≠ .ident name) →
      StatementEnds ts ⟨none, [⟨ts, .token "<ident>"⟩, ⟨ts, .token "<ident>"⟩]⟩
  | found (us : List Lexeme) {rest : List Lexeme} {p : Position} {s : Statement}
      {misses : List Miss} : us ≠ [] → lineStart.advance? us = some p → p.ending? = some [s] →
      (∀ l ∈ rest.head?, p.next? l = none) → UpTo rest misses →
      notedAt rest misses ++ [.token "<newline>", .endOfInput] = p.expectations →
        StatementEnds (us ++ rest) ⟨some (s, rest), misses⟩
  | lost (us : List Lexeme) {rest : List Lexeme} {q : Position}
      {value : Option (Statement × List Lexeme)} {misses : List Miss} : us ≠ [] →
      lineStart.advance? us = some q → Halts q rest → Blames misses rest q →
      (∀ s after, value = some (s, after) →
        rest.length < after.length ∧ ∀ l ∈ after.head?, l.token ≠ .newline) →
        StatementEnds (us ++ rest) ⟨value, misses⟩

/-- A chain that is not cut off ends where its line may end. -/
theorem isChain_of_links (size : Nat) {vs : List Lexeme} {front : List Endpoint} {e last : Endpoint}
    (he : IsEndpoint us e) (hlinks : Links vs (front ++ [last]))
    (hadvance : (first e).advance? vs = some (later (front.reverse ++ [e]) last)) :
    lineStart.advance? (us ++ vs) = some (later (front.reverse ++ [e]) last) ∧
      (later (front.reverse ++ [e]) last).ending? =
        some [.chain ⟨e :: (front ++ [last]), coveredSpan size (us ++ vs)⟩] := by
  have hwhole := advance?_trans (advance?_first he) hadvance
  have hne : us ++ vs ≠ [] := by simp [he.span.1]
  have hchain : IsChain (us ++ vs) ⟨e :: (front ++ [last]), coveredSpan size (us ++ vs)⟩ :=
    ⟨hlinks us [e] (.one he), by simp, coveredSpan_eq_extent hne⟩
  obtain ⟨p, hp, hending⟩ := advance?_isChain hchain
  obtain rfl : later (front.reverse ++ [e]) last = p := Option.some.inj (hwhole.symm.trans hp)
  exact ⟨hwhole, hending⟩

theorem expectations_later {e : Endpoint} :
    (later endpoints e).expectations =
      e.pending ++ [.token "->", .token "<newline>", .endOfInput] := by
  obtain ⟨node, _ | handle, bytes⟩ := e <;> rfl

/-- The first endpoint of a chain and its links. -/
theorem chain_of_endpoint {e : Endpoint} {es : List Endpoint} {behind after : List Lexeme}
    {misses further : List Miss} (hfirst : Parser.endpoint size ts = ⟨some (e, behind), misses⟩)
    (hlinks : Parser.link.repeatedFrom size (behind.length + 1) behind =
      ⟨some (es, after), further⟩) :
    (Parser.endpoint.andThen (Parser.link.repeated 1)) size ts =
      if es.length < 1 then ⟨none, misses ++ further⟩
      else ⟨some ((e, es), after), misses ++ further⟩ := by
  rw [Parser.andThen, hfirst, Reply.bind_some, Parser.repeated, hlinks, Reply.bind_some]
  split <;> simp

theorem first_stops {e : Endpoint} (l : Lexeme) (harrow : l.token ≠ .arrow)
    (hbare : e.handle = none → l.token ≠ .dot ∧ l.token ≠ .equals) : (first e).next? l = none := by
  obtain ⟨token, span⟩ := l
  obtain ⟨node, _ | handle, bytes⟩ := e
  · cases token with
    | arrow => exact absurd rfl harrow
    | dot => exact absurd rfl (hbare rfl).1
    | equals => exact absurd rfl (hbare rfl).2
    | _ => rfl
  · cases token with
    | arrow => exact absurd rfl harrow
    | _ => rfl

/-- A chain, where no `=` stands behind the first name. -/
theorem chain_ends {name : Ident} (hequals : ∀ l ∈ rest.head?, l.token ≠ .equals) :
    StatementEnds (name.lexeme :: rest)
      ((Parser.chain size (name.lexeme :: rest)).after [⟨rest, .token "="⟩]) := by
  have hends := endpoint_ends size (name.lexeme :: rest)
  generalize hreply : Parser.endpoint size (name.lexeme :: rest) = reply at hends
  generalize hts : name.lexeme :: rest = ts at hends hreply ⊢
  cases hends with
  | refused hident =>
    subst hts
    exact absurd rfl (hident _ rfl name.name)
  | @found us behind e misses he hdot hmisses hnoted =>
    have hlinks := links_end size (behind.length + 1) [e] (first e) behind
      (fun between => next?_first between he) (Nat.lt_succ_self _)
    generalize hrepeated : Parser.link.repeatedFrom size (behind.length + 1) behind = links
      at hlinks
    have htokens := congrArg List.length hts
    simp only [List.length_cons, List.length_append] at htokens
    have hfirst := List.length_pos_iff.2 he.span.1
    -- what was looked for before the links lies before every place behind one of them
    have hearlier : ∀ vs place, behind = vs ++ place → vs ≠ [] →
        Before place ([⟨rest, .token "="⟩] ++ misses) := by
      rintro vs place hbehind hvs
      have hshort : place.length < behind.length := hbehind ▸ length_lt_append hvs place
      exact (before_cons (by omega) before_nil).append (hmisses.before hshort)
    cases hlinks with
    | none hnone =>
      have hchain : Parser.chain size (us ++ behind) =
          ⟨none, misses ++ [⟨behind, .token "->"⟩]⟩ :=
        mapWith_none (chain_of_endpoint hreply hrepeated)
      rw [hchain, Reply.after_mk]
      cases he with
      | bare node =>
        obtain rfl : rest = behind := (List.cons.inj hts).2
        refine .lost [node.lexeme] (by simp) rfl ⟨rfl, fun l hl => ?_⟩ ⟨?_, ?_⟩ (by simp)
        · exact first_stops (e := .bare node) l (hnone l hl)
            fun hbare => ⟨hdot rfl l hl, hequals l hl⟩
        · exact upTo_here (hmisses.append (upTo_here upTo_nil))
        · rw [List.singleton_append, notedAt_here, notedAt_append, hnoted, notedAt_here,
            notedAt_nil]
          rfl
      | withHandle node handle dot husts =>
        have hthree : us.length = 3 := congrArg List.length husts
        have hbefore : Before behind [⟨rest, .token "="⟩] := before_cons (by omega) before_nil
        refine .lost us (by simp [husts]) (by rw [husts]; rfl) ⟨rfl, fun l hl => ?_⟩
          (Blames.behind ⟨hmisses.append (upTo_here upTo_nil), ?_⟩ hbefore) (by simp)
        · exact first_stops (e := .withHandle node handle) l (hnone l hl) fun h => nomatch h
        · rw [notedAt_append, hnoted, notedAt_here, notedAt_nil]
          rfl
    | @found vs front rest' last further hvs hmore hadvance hstops hfurther hlast =>
      rw [← List.append_assoc] at hreply hts ⊢
      have hchain : Parser.chain size (us ++ vs ++ rest') =
          ⟨some (.chain ⟨e :: (front ++ [last]), coveredSpan size (us ++ vs)⟩, rest'),
            misses ++ further⟩ :=
        mapWith_found (a := (e, front ++ [last]))
          ((chain_of_endpoint hreply hrepeated).trans (if_neg (by simp)))
      obtain ⟨hwhole, hending⟩ := isChain_of_links size he hmore hadvance
      have hbefore := hearlier vs rest' rfl hvs
      rw [hchain, Reply.after_mk, ← List.append_assoc]
      refine .found (us ++ vs) (by simp [hvs]) hwhole hending hstops
        (hbefore.upTo.append hfurther) ?_
      rw [notedAt_append, hbefore.notedAt, List.nil_append, hlast, expectations_later]
      simp
    | @cut vs rest' after q l es further hvs hadvance hhalts hblames hl hlong =>
      have hlost : ∃ value, Parser.chain size (us ++ (vs ++ rest')) = ⟨value, misses ++ further⟩ ∧
          ∀ s left, value = some (s, left) → left = l :: after := by
        have hpair := chain_of_endpoint hreply hrepeated
        split at hpair
        · exact ⟨_, mapWith_none hpair, by simp⟩
        · exact ⟨_, mapWith_some hpair, by simp [eq_comm]⟩
      obtain ⟨value, hchain, hleft⟩ := hlost
      have hbefore := hearlier vs rest' rfl hvs
      rw [hchain, Reply.after_mk, ← List.append_assoc, ← List.append_assoc]
      refine .lost (us ++ vs) (by simp [hvs]) (advance?_trans (advance?_first he) hadvance) hhalts
        (hblames.behind hbefore) fun s left hvalue => ?_
      obtain rfl := hleft s left hvalue
      refine ⟨hlong, ?_⟩
      rintro _ ⟨⟩
      rcases hl with hl | hl <;> simp [hl]
  | @cut behind node dot hident =>
    obtain rfl : rest = ⟨.dot, dot⟩ :: behind := (List.cons.inj hts).2
    have hchain : Parser.chain size (node.lexeme :: ⟨.dot, dot⟩ :: behind) =
        ⟨none, [⟨behind, .token "<ident>"⟩, ⟨⟨.dot, dot⟩ :: behind, .token "->"⟩]⟩ :=
      mapWith_none (chain_of_endpoint hreply (links_none (by simp)))
    have hhalts := (AwaitsName.firstDot node).halts hident
    have hblames : Blames [⟨behind, .token "<ident>"⟩] behind (firstDot node) :=
      ⟨upTo_here upTo_nil, by rw [notedAt_here]; rfl⟩
    have hbefore : ∀ e : Expectation, Before behind [⟨⟨.dot, dot⟩ :: behind, e⟩] :=
      fun _ => before_cons (by simp) before_nil
    rw [hchain, Reply.after_mk]
    exact .lost [node.lexeme, ⟨.dot, dot⟩] (by simp) rfl hhalts
      ((hblames.append (hbefore _)).behind (hbefore _)) (by simp)

end Chains

/-! ## Statements -/

section Statements

/-- A name without `=` is no declaration. -/
theorem declaration_of_no_equals {name : Ident} (h : ∀ l ∈ rest.head?, l.token ≠ .equals) :
    Parser.declaration size (name.lexeme :: rest) = ⟨none, [⟨rest, .token "="⟩]⟩ := by
  have hname : Parser.ident size (name.lexeme :: rest) = ⟨some (name, rest), []⟩ := rfl
  rcases just_cases .equals size rest with ⟨equals, behind, rfl, -⟩ | ⟨-, hequals⟩
  · exact absurd rfl (h _ rfl)
  · exact mapWith_none (by simp [Parser.andThen, thenIgnore_eq, hname, hequals, Token.render])

/-- A name with `=` is no chain. -/
theorem chain_of_equals {name : Ident} {equals : Span} :
    Parser.chain size (name.lexeme :: ⟨.equals, equals⟩ :: rest) =
      ⟨none, [⟨⟨.equals, equals⟩ :: rest, .token "."⟩,
        ⟨⟨.equals, equals⟩ :: rest, .token "->"⟩]⟩ := by
  have hfirst : Parser.endpoint size (name.lexeme :: ⟨.equals, equals⟩ :: rest) =
      ⟨some (_, ⟨.equals, equals⟩ :: rest), [⟨⟨.equals, equals⟩ :: rest, .token "."⟩]⟩ := rfl
  exact mapWith_none (chain_of_endpoint hfirst (links_none (by simp)))

/-- **The alternatives of a statement do not disturb each other**: what the one has looked for in
vain lies before the place where the other stops, or is what else may follow there. -/
theorem statement_ends (size : Nat) (ts : List Lexeme) :
    StatementEnds ts (Parser.statement size ts) := by
  rw [Parser.statement, Parser.or]
  rcases ident_cases size ts with ⟨name, rest, rfl, -⟩ | ⟨hnone, hident⟩
  · rcases just_cases .equals size rest with ⟨equals, behind, rfl, -⟩ | ⟨hequals, -⟩
    · have hends := ends_declaration name equals size behind
      generalize Parser.declaration size _ = reply at hends ⊢
      rw [chain_of_equals]
      generalize hts : name.lexeme :: ⟨.equals, equals⟩ :: behind = ts at hends ⊢
      cases hends with
      | found us hD hne _ hbefore =>
        obtain ⟨d, rfl, hd⟩ := hD
        exact .found us hne (advance?_isDeclaration hd) rfl (fun _ _ => rfl) hbefore.upTo
          (by rw [hbefore.notedAt]; rfl)
      | refused expected _ hstops =>
        subst hts
        rcases hstops _ rfl with hstop | hother
        · cases hstop
        · exact absurd hother List.not_mem_nil
      | @stuck us rest q misses hne _ hadvance hhalts hblames =>
        -- the declaration got beyond `=`
        obtain ⟨l, us, rfl⟩ := List.exists_cons_of_ne_nil hne
        obtain ⟨rfl, hbehind⟩ : name.lexeme = l ∧ ⟨.equals, equals⟩ :: behind = us ++ rest :=
          List.cons.inj hts
        have hus : us ≠ [] := by
          rintro rfl
          obtain rfl : firstName name = q := Option.some.inj hadvance
          rw [List.nil_append] at hbehind
          have hstop := hhalts.stops ⟨.equals, equals⟩ (by rw [← hbehind]; rfl)
          cases hstop
        have hlong : rest.length < (⟨.equals, equals⟩ :: behind : List Lexeme).length :=
          hbehind ▸ length_lt_append hus rest
        exact .lost _ hne hadvance hhalts
          (hblames.append (before_cons hlong (before_cons hlong before_nil))) (by simp)
    · rw [declaration_of_no_equals hequals]
      exact chain_ends hequals
  · have hdeclaration : Parser.declaration size ts = ⟨none, [⟨ts, .token "<ident>"⟩]⟩ :=
      mapWith_none (by simp [Parser.andThen, thenIgnore_eq, hident])
    have hendpoint : Parser.endpoint size ts = ⟨none, [⟨ts, .token "<ident>"⟩]⟩ :=
      mapWith_none (by simp [Parser.andThen, hident])
    have hchain : Parser.chain size ts = ⟨none, [⟨ts, .token "<ident>"⟩]⟩ :=
      mapWith_none (by simp [Parser.andThen, hendpoint])
    rw [hdeclaration, hchain]
    exact .refused hnone

end Statements

/-! ## Lines -/

section Lines

variable {ends : List Lexeme} {limit : Nat}

theorem exists_lineEnds (ts : List Lexeme) :
    ∃ ends rest, ts = ends ++ rest ∧ LineEnds ends ∧ ∀ l ∈ rest.head?, l.token ≠ .newline := by
  induction ts with
  | nil => exact ⟨[], [], rfl, fun _ h => absurd h List.not_mem_nil, by simp⟩
  | cons l ts ih =>
    by_cases hl : l.token = .newline
    · obtain ⟨ends, rest, rfl, hends, hrest⟩ := ih
      refine ⟨l :: ends, rest, rfl, fun t ht => ?_, hrest⟩
      rcases List.mem_cons.1 ht with rfl | ht
      · exact hl
      · exact hends t ht
    · exact ⟨[], l :: ts, rfl, fun _ h => absurd h List.not_mem_nil, by simpa using hl⟩

theorem newlines_repeatedFrom (hends : LineEnds ends)
    (hrest : ∀ l ∈ rest.head?, l.token ≠ .newline) (hlimit : ends.length < limit) :
    (Parser.just .newline).repeatedFrom size limit (ends ++ rest) =
      ⟨some (ends, rest), [⟨rest, .token "<newline>"⟩]⟩ := by
  induction ends generalizing limit with
  | nil =>
    obtain ⟨limit, rfl⟩ := Nat.exists_eq_succ_of_ne_zero (Nat.ne_zero_of_lt hlimit)
    rcases just_cases .newline size rest with ⟨span, behind, rfl, -⟩ | ⟨-, hnone⟩
    · exact absurd rfl (hrest _ rfl)
    · rw [List.nil_append, Parser.repeatedFrom, hnone]
      rfl
  | cons l ends ih =>
    obtain ⟨limit, rfl⟩ := Nat.exists_eq_succ_of_ne_zero (Nat.ne_zero_of_lt hlimit)
    have hl : Parser.just .newline size (l :: (ends ++ rest)) = ⟨some (l, ends ++ rest), []⟩ := by
      simp [Parser.just, Parser.one, hends l (List.mem_cons_self ..)]
    rw [List.cons_append, Parser.repeatedFrom, hl]
    dsimp only
    rw [ih (fun t ht => hends t (List.mem_cons_of_mem _ ht)) (by simpa using hlimit)]
    rfl

theorem lineEnds_eq (size least : Nat) (hends : LineEnds ends)
    (hrest : ∀ l ∈ rest.head?, l.token ≠ .newline) :
    Parser.lineEnds least size (ends ++ rest) =
      ⟨if ends.length < least then none else some (ends, rest), [⟨rest, .token "<newline>"⟩]⟩ := by
  have hlimit : ends.length < (ends ++ rest).length + 1 := by
    rw [List.length_append]
    omega
  rw [Parser.lineEnds, Parser.repeated, newlines_repeatedFrom hends hrest hlimit]
  rw [Reply.bind_some]
  split <;> rfl

theorem Halts.statementsFrom (h : Halts q rest) :
    statementsFrom q rest = .error ⟨rest.head?, q⟩ := by
  cases rest with
  | nil =>
    rw [Sketch.statementsFrom, h.unfinished]
    rfl
  | cons l rest =>
    rw [Sketch.statementsFrom, h.unfinished, h.stops l rfl]
    split <;> rfl

theorem statementsFrom_stop {l : Lexeme} (hl : l.token ≠ .newline) (h : p.next? l = none) :
    statementsFrom p (l :: rest) = .error ⟨some l, p⟩ := by
  rw [statementsFrom, if_neg hl, h]

theorem eraseDups_repeat (xs ys : List Expectation) (e : Expectation) :
    (xs ++ e :: e :: ys).eraseDups = (xs ++ e :: ys).eraseDups := by
  rw [List.eraseDups_append, List.eraseDups_append]
  by_cases h : e ∈ xs <;> simp [List.removeAll, h, List.eraseDups_cons]

/-- **What becomes of the lines of a sketch**, with what has been looked for before them: all tokens
are read; or they stop at a token where a line may end, and what may follow within the line has been
looked for; or they stop further on, and the tokens left begin within a line. -/
inductive LinesEnd : List Lexeme → Reply (List Statement) → Prop where
  | whole {ts : List Lexeme} {statements : List Statement} {misses : List Miss} :
      statementsFrom .lineStart ts = .ok statements →
        LinesEnd ts ⟨some (statements, []), misses⟩
  | here {ts rest : List Lexeme} {l : Lexeme} {p : Position} {statements : List Statement}
      {misses : List Miss} : l.token ≠ .newline →
      statementsFrom .lineStart ts = .error ⟨some l, p⟩ → (l :: rest).length ≤ ts.length →
      UpTo (l :: rest) misses →
      (notedAt (l :: rest) misses ++ [Expectation.token "<newline>", .endOfInput]).eraseDups =
        p.expectations → LinesEnd ts ⟨some (statements, l :: rest), misses⟩
  | lost {ts rest after : List Lexeme} {l : Lexeme} {q : Position} {statements : List Statement}
      {misses : List Miss} : l.token ≠ .newline →
      statementsFrom .lineStart ts = .error ⟨rest.head?, q⟩ → rest.length ≤ ts.length →
      Blames misses rest q → rest.length < (l :: after).length →
        LinesEnd ts ⟨some (statements, l :: after), misses⟩

/-- One more statement on a line above the others. -/
theorem LinesEnd.more {reply : Reply (List Statement)} {misses : List Miss} {s : Statement}
    (h : LinesEnd rest reply)
    (hts : statementsFrom .lineStart ts = (statementsFrom .lineStart rest).map (s :: ·))
    (hlength : rest.length ≤ ts.length) (hbefore : Before rest misses) :
    LinesEnd ts ((reply.map (s :: ·)).after misses) := by
  cases h with
  | whole h => exact .whole (by rw [hts, h]; rfl)
  | here hl h hle hupTo hnoted =>
    have hmisses := hbefore.mono hle
    refine .here hl (by rw [hts, h]; rfl) (Nat.le_trans hle hlength) (hmisses.upTo.append hupTo) ?_
    rw [notedAt_append, hmisses.notedAt, List.nil_append]
    exact hnoted
  | lost hl h hle hblames hlong =>
    exact .lost hl (by rw [hts, h]; rfl) (Nat.le_trans hle hlength)
      (hblames.behind (hbefore.mono hle)) hlong

/-- **The lines of a sketch**, from the start of one of them on. -/
theorem lines_end (size limit : Nat) (ts : List Lexeme)
    (hstart : ∀ l ∈ ts.head?, l.token ≠ .newline) (hlimit : ts.length < limit) :
    LinesEnd ts ((Parser.statement.separatedFrom (Parser.lineEnds 1) size limit ts).after
      [⟨ts, .token "<newline>"⟩]) := by
  -- statement by statement; behind line ends the others are lines again
  induction limit generalizing ts with
  | zero => omega
  | succ limit ih =>
    have hends := statement_ends size ts
    unfold Parser.separatedFrom
    generalize Parser.statement size ts = reply at hends ⊢
    cases hends with
    | refused hident =>
      cases ts with
      | nil => exact .whole rfl
      | cons l rest =>
        have hstop : lineStart.next? l = none := by
          obtain ⟨token, span⟩ := l
          cases token with
          | ident name => exact absurd rfl (hident _ rfl name)
          | _ => rfl
        refine .here (hstart l rfl) (statementsFrom_stop (hstart l rfl) hstop) (Nat.le_refl _)
          (upTo_here (upTo_here (upTo_here upTo_nil))) ?_
        simp only [notedAt_here, notedAt_nil, List.cons_append, List.nil_append]
        rfl
    | @found us rest p s misses hne hadvance hending hstops hmisses hnoted =>
      have hpos := List.length_pos_iff.2 hne
      obtain ⟨ends, rest, rfl, hends, hrest⟩ := exists_lineEnds rest
      have hstatements : statementsFrom .lineStart (us ++ (ends ++ rest)) =
          statementsFrom p (ends ++ rest) := statementsFrom_advance hadvance
      dsimp only
      rw [lineEnds_eq size 1 hends hrest]
      cases ends with
      | nil =>
        rw [List.nil_append] at hstatements hstops hmisses hnoted ⊢
        have hbefore : Before rest [⟨us ++ rest, .token "<newline>"⟩] :=
          before_cons (length_lt_append hne rest) before_nil
        rw [List.length_nil, if_pos Nat.zero_lt_one]
        dsimp only
        rw [Reply.after_mk]
        cases rest with
        | nil =>
          refine .whole ?_
          rw [hstatements, statementsFrom, hending]
        | cons l rest =>
          have hl := hrest l rfl
          refine .here hl (hstatements.trans (statementsFrom_stop hl (hstops l rfl))) (by simp)
            (hbefore.upTo.append (hmisses.append (upTo_here upTo_nil))) ?_
          rw [notedAt_append, notedAt_append, hbefore.notedAt, notedAt_here, notedAt_nil,
            List.nil_append, List.append_assoc, List.singleton_append, eraseDups_repeat, hnoted,
            eraseDups_expectations]
      | cons l ends =>
        have hinner : rest.length < (l :: ends ++ rest).length :=
          length_lt_append (List.cons_ne_nil l ends) rest
        have houter := length_lt_append hne (l :: ends ++ rest)
        have hmore := ih rest hrest (by omega)
        have hline : statementsFrom .lineStart (us ++ (l :: ends ++ rest)) =
            (statementsFrom .lineStart rest).map (s :: ·) := by
          rw [hstatements, List.cons_append,
            statementsFrom_newline (hends l (List.mem_cons_self ..)) hending,
            statementsFrom_lineEnds fun t ht => hends t (List.mem_cons_of_mem _ ht)]
          rfl
        have hbefore : Before rest
            ([⟨us ++ (l :: ends ++ rest), .token "<newline>"⟩] ++ misses) :=
          (before_cons (Nat.lt_trans hinner houter) before_nil).append (hmisses.before hinner)
        rw [if_neg (by simp)]
        have hall := hmore.more hline (Nat.le_of_lt (Nat.lt_trans hinner houter)) hbefore
        simpa using hall
    | @lost us rest q value misses hne hadvance hhalts hblames hleft =>
      have hpos := List.length_pos_iff.2 hne
      have hstatements : statementsFrom .lineStart (us ++ rest) = .error ⟨rest.head?, q⟩ :=
        (statementsFrom_advance hadvance).trans hhalts.statementsFrom
      have hbefore : Before rest [⟨us ++ rest, .token "<newline>"⟩] :=
        before_cons (length_lt_append hne rest) before_nil
      cases value with
      | none =>
        dsimp only
        rw [Reply.after_mk]
        generalize hts : us ++ rest = ts at *
        cases ts with
        | nil => exact absurd hts (by simp [hne])
        | cons l after =>
          refine .lost (hstart l rfl) hstatements ?_ (hblames.behind hbefore) ?_ <;>
            rw [← hts, List.length_append] <;> omega
      | some pair =>
        obtain ⟨s, left⟩ := pair
        obtain ⟨hlong, hwithin⟩ := hleft s left rfl
        have hnone : LineEnds [] := fun _ h => absurd h List.not_mem_nil
        have hlines := lineEnds_eq size 1 hnone hwithin
        rw [List.nil_append, List.length_nil, if_pos Nat.zero_lt_one] at hlines
        dsimp only
        rw [hlines]
        dsimp only
        rw [Reply.after_mk]
        cases left with
        | nil => simp at hlong
        | cons l after =>
          exact .lost (hwithin l rfl) hstatements (by simp)
            ((hblames.append (before_cons hlong before_nil)).behind hbefore) hlong

/-- What becomes of the tokens behind the first line ends decides on the sketch. -/
theorem sketch_of_lines {left : List Lexeme} {statements : List Statement} {misses : List Miss}
    (hends : LineEnds ends) (hrest : ∀ l ∈ rest.head?, l.token ≠ .newline)
    (hlines : (Parser.statement.separatedFrom (Parser.lineEnds 1) size (rest.length + 1) rest).after
      [⟨rest, .token "<newline>"⟩] = ⟨some (statements, left), misses⟩)
    (hleft : ∀ l ∈ left.head?, l.token ≠ .newline) :
    (Parser.sketch.thenIgnore .finish) size (ends ++ rest) =
      ((Parser.finish size left).map fun _ => (⟨statements, coveredSpan size
        ((ends ++ rest).take ((ends ++ rest).length - left.length))⟩ : Sketch)).after
          (misses ++ [⟨left, .token "<newline>"⟩]) := by
  have hnone : LineEnds [] := fun _ h => absurd h List.not_mem_nil
  have hbefore := lineEnds_eq size 0 hends hrest
  have hbehind := lineEnds_eq size 0 hnone hleft
  rw [if_neg (by simp)] at hbefore hbehind
  have hinner : (((Parser.lineEnds 0).ignoreThen
      (Parser.statement.separatedBy (Parser.lineEnds 1))).thenIgnore (Parser.lineEnds 0)) size
        (ends ++ rest) = ⟨some (statements, left), misses ++ [⟨left, .token "<newline>"⟩]⟩ := by
    rw [thenIgnore_eq, ignoreThen_eq, hbefore, Reply.bind_some, Parser.separatedBy, hlines,
      Reply.bind_some, ← List.nil_append left, hbehind]
    rfl
  have hsketch : Parser.sketch size (ends ++ rest) = _ := mapWith_some hinner
  rw [thenIgnore_eq, hsketch]
  rfl

/-- **Parsers and positions agree** on all tokens: they find the same statements, or the furthest
misses are what may follow where reading from position to position stops. -/
theorem sketch_ends (size : Nat) (ts : List Lexeme) :
    match statementsFrom .lineStart ts with
    | .ok statements =>
      ((Parser.sketch.thenIgnore .finish) size ts).value =
        some (⟨statements, coveredSpan size ts⟩, [])
    | .error fault =>
      ((Parser.sketch.thenIgnore .finish) size ts).value = none ∧
        ∃ rest, rest.head? = fault.found ∧
          DeadEnd.furthest ((Parser.sketch.thenIgnore .finish) size ts).misses =
            some ⟨rest, fault.position.expectations⟩ := by
  obtain ⟨ends, rest, rfl, hends, hrest⟩ := exists_lineEnds ts
  rw [statementsFrom_lineEnds hends]
  have hlines := lines_end size (rest.length + 1) rest hrest (Nat.lt_succ_self _)
  generalize hreply : Reply.after _ _ = reply at hlines
  cases hlines with
  | @whole statements misses hread =>
    rw [hread, sketch_of_lines hends hrest hreply (by simp)]
    simp [Parser.finish, List.take_of_length_le]
  | @here left l p statements misses hl hread _ hupTo hnoted =>
    rw [hread, sketch_of_lines hends hrest hreply (by simpa using hl)]
    have hblames : Blames (misses ++ [⟨l :: left, .token "<newline>"⟩] ++
        [⟨l :: left, .endOfInput⟩]) (l :: left) p := by
      refine ⟨(hupTo.append (upTo_here upTo_nil)).append (upTo_here upTo_nil), ?_⟩
      rw [notedAt_append, notedAt_append, notedAt_here, notedAt_here, notedAt_nil,
        List.append_assoc]
      exact hnoted
    exact ⟨rfl, l :: left, rfl, hblames.furthest⟩
  | @lost place after l q statements misses hl hread _ hblames hlong =>
    rw [hread, sketch_of_lines hends hrest hreply (by simpa using hl)]
    have hbefore : ∀ e : Expectation, Before place [⟨l :: after, e⟩] :=
      fun _ => before_cons hlong before_nil
    have hall := (hblames.append (hbefore (.token "<newline>"))).append (hbefore .endOfInput)
    exact ⟨rfl, place, rfl, hall.furthest⟩

end Lines

/-! ## Texts -/

/-- What is said about a place is what is said about the position there. -/
theorem DeadEnd.message_eq (rest : List Lexeme) (q : Position) :
    DeadEnd.message ⟨rest, q.expectations⟩ = GrammarFault.message ⟨rest.head?, q⟩ := by
  cases rest <;> rfl

theorem DeadEnd.span_eq (rest : List Lexeme) (q : Position) (size : Nat) :
    DeadEnd.span ⟨rest, q.expectations⟩ size = GrammarFault.span ⟨rest.head?, q⟩ size := by
  cases rest <;> rfl

/-- **A text is parsed as its tokens are read from position to position**: it has the statements
that are read, or the one error is the place where reading stops, with what may follow there. -/
theorem parse_eq (source : String) :
    parse source =
      match statementsFrom .lineStart (lex source).lexemes with
      | .ok statements =>
        ⟨some ⟨statements, coveredSpan source.utf8ByteSize (lex source).lexemes⟩,
          (lex source).faults⟩
      | .error fault =>
        ⟨none, (lex source).faults ++ [⟨fault.message, fault.span source.utf8ByteSize⟩]⟩ := by
  have hends := sketch_ends source.utf8ByteSize (lex source).lexemes
  unfold parse
  cases hread : statementsFrom .lineStart (lex source).lexemes with
  | ok statements =>
    rw [hread] at hends
    dsimp only at hends ⊢
    rw [hends]
  | error fault =>
    rw [hread] at hends
    obtain ⟨hnone, rest, hrest, hfurthest⟩ := hends
    obtain ⟨found, q⟩ := fault
    obtain rfl : rest.head? = found := hrest
    dsimp only
    rw [hnone, hfurthest, ← DeadEnd.message_eq, ← DeadEnd.span_eq]
    rfl

end ShapeFlow.Sketch
