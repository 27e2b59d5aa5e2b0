import ShapeFlow.Proofs.Lowering
import ShapeFlow.Proofs.Parse
import ShapeFlow.Flow.Recompute

/-!
# Loading a sketch

* `Sketch.Spells.arrowCount`: the arrows among the tokens of a sketch are those of its chains.
* `Sketch.Loadable`: what a text must be in order to have a graph.
* `Sketch.Draws`: the graph of statements.
* `Graph.warnings_of_joined`: a graph whose edges join its nodes gives no warning about nodes.
* `Sketch.load_succeeds_or_explains`: **a text is loaded iff nothing is wrong with it, and otherwise
  all that is wrong is found**, in a fixed order and nothing else.
-/

namespace ShapeFlow

/-! ## Warnings about nodes -/

namespace Graph

variable {g : Graph}

/-- **A graph whose edges join its nodes** gives no warning about nodes. -/
theorem warnings_of_joined (honce : g.duplicates = [])
    (hjoined : ∀ e ∈ g.edges, (g.node? e.source).isSome ∧ (g.node? e.target).isSome) :
    ∀ w ∈ g.recompute.warnings, w.code ≠ some .danglingEdge ∧ w.code ≠ some .duplicateNode := by
  intro w hw
  change w ∈ g.warnings at hw
  rw [warnings_eq, honce, List.map_nil, List.nil_append] at hw
  obtain ⟨⟨e, neglect?⟩, hclass, hwarning⟩ := List.mem_filterMap.1 hw
  obtain ⟨neglect, rfl, rfl⟩ := Option.map_eq_some_iff.1 hwarning
  obtain ⟨he, before, hneglect⟩ := exists_neglect?_of_mem_classesFrom hclass
  obtain ⟨hsource, htarget⟩ := hjoined e he
  obtain ⟨source, hsource⟩ := Option.isSome_iff_exists.1 hsource
  obtain ⟨target, htarget⟩ := Option.isSome_iff_exists.1 htarget
  -- only a missing node gives the code of a dangling edge
  cases neglect with
  | missingNode id =>
    rw [neglect?, hsource, htarget] at hneglect
    dsimp only at hneglect
    split at hneglect
    · cases hneglect
    split at hneglect
    · cases hneglect
    split at hneglect <;> cases hneglect
  | unknownOutput id block =>
    show some Code.unknownHandle ≠ some .danglingEdge ∧
      some Code.unknownHandle ≠ some .duplicateNode
    decide
  | unknownInput id block =>
    show some Code.unknownHandle ≠ some .danglingEdge ∧
      some Code.unknownHandle ≠ some .duplicateNode
    decide
  | repeated =>
    show some Code.duplicateEdge ≠ some .danglingEdge ∧
      some Code.duplicateEdge ≠ some .duplicateNode
    decide

end Graph

namespace Sketch

/-! ## Arrows among tokens -/

section Tokens

variable {α : Type} {item : List Lexeme → α → Prop} {ts us : List Lexeme} {as : List α}
  {statements : List Statement}

/-- The number of arrows among tokens. -/
def arrowCount (ts : List Lexeme) : Nat := ts.countP (·.token = .arrow)

theorem arrowCount_append : arrowCount (ts ++ us) = arrowCount ts + arrowCount us :=
  List.countP_append

theorem arrowCount_cons (t : Lexeme) :
    arrowCount (t :: ts) = arrowCount ts + if t.token = .arrow then 1 else 0 := by
  rw [arrowCount, List.countP_cons, ← arrowCount]
  simp

theorem arrowCount_separated (hitem : ∀ us a, item us a → arrowCount us = 0)
    (h : Separated .comma item ts as) : arrowCount ts = 0 := by
  induction h with
  | one ha => exact hitem _ _ ha
  | more between ha _ ih =>
    rw [arrowCount_append, arrowCount_cons, ih, hitem _ _ ha]
    rfl

theorem arrowCount_listed (hitem : ∀ us a, item us a → arrowCount us = 0)
    (h : Listed item ts as) : arrowCount ts = 0 := by
  cases h with
  | nothing => rfl
  | items h => exact arrowCount_separated hitem h
  | trailing comma h =>
    rw [arrowCount_append, arrowCount_separated hitem h]
    rfl

theorem arrowCount_isValue {v : Value} (h : IsValue ts v) : arrowCount ts = 0 := by
  cases h with
  | number => rfl
  | flag => rfl
  | text => rfl
  | name => rfl
  | numbers opening closing hxs hts =>
    have hinner := arrowCount_listed (by rintro us x ⟨⟩; rfl) hxs
    rw [hts, arrowCount_cons, arrowCount_append, hinner]
    rfl

theorem arrowCount_isArgument {a : Argument} (h : IsArgument ts a) : arrowCount ts = 0 := by
  cases h with
  | argument key equals hv =>
    rw [arrowCount_cons, arrowCount_cons, arrowCount_isValue hv]
    rfl

/-- A declaration has no arrow. -/
theorem arrowCount_isDeclaration {d : Declaration} (h : IsDeclaration ts d) :
    arrowCount ts = 0 := by
  cases h with
  | declaration closing hhead hargs hts =>
    have hinner := arrowCount_listed (fun _ _ => arrowCount_isArgument) hargs
    cases hhead with
    | head name block equals opening =>
      rw [hts, arrowCount_append, arrowCount_append, hinner]
      rfl

theorem arrowCount_isEndpoint {e : Endpoint} (h : IsEndpoint ts e) : arrowCount ts = 0 := by
  cases h with
  | bare node => rfl
  | withHandle node handle dot hts =>
    rw [hts]
    rfl

/-- Between two endpoints there is an arrow. -/
theorem arrowCount_endpoints {es : List Endpoint} (h : Separated .arrow IsEndpoint ts es) :
    arrowCount ts + 1 = es.length := by
  induction h with
  | one he =>
    rw [arrowCount_isEndpoint he]
    rfl
  | more between he _ ih =>
    rw [arrowCount_append, arrowCount_cons, arrowCount_isEndpoint he, List.length_cons, if_pos rfl]
    omega

/-- The edges of statements, still without ids: one for every arrow, in order. -/
def arrows (statements : List Statement) : List Edge := (chains statements).flatMap Chain.arrows

/-- A statement has an edge for each of its arrows. -/
theorem arrowCount_isStatement {s : Statement} (h : IsStatement ts s) :
    arrowCount ts = (arrows [s]).length := by
  cases h with
  | node h => exact arrowCount_isDeclaration h
  | @chain c h =>
    have hcount := arrowCount_endpoints h.joined
    have hedges : arrows [.chain c] = c.arrows := List.append_nil _
    rw [hedges, length_arrows]
    omega

theorem arrowCount_lineEnds (h : LineEnds ts) : arrowCount ts = 0 := by
  refine List.countP_eq_zero.2 fun t ht => ?_
  rw [h t ht]
  decide

theorem arrows_cons (s : Statement) (statements : List Statement) :
    arrows (s :: statements) = arrows [s] ++ arrows statements := by
  cases s with
  | node d => rfl
  | chain c =>
    change c.arrows ++ arrows statements = (c.arrows ++ []) ++ arrows statements
    rw [List.append_nil]

theorem arrowCount_isLines (h : IsLines ts statements) :
    arrowCount ts = (arrows statements).length := by
  induction h with
  | one hs => exact arrowCount_isStatement hs
  | @more us ends rest s ss hs _ hends _ ih =>
    rw [arrowCount_append, arrowCount_append, arrowCount_isStatement hs, arrowCount_lineEnds hends,
      ih, arrows_cons s ss, List.length_append, Nat.add_zero]

/-- **The arrows among the tokens of a sketch are those of its chains.** -/
theorem Spells.arrowCount (h : Spells ts statements) :
    arrowCount ts = (arrows statements).length := by
  cases h with
  | blank hts => exact arrowCount_lineEnds hts
  | lines hbefore hlines hafter =>
    rw [arrowCount_append, arrowCount_append, arrowCount_lineEnds hbefore,
      arrowCount_lineEnds hafter, arrowCount_isLines hlines, Nat.add_zero, Nat.zero_add]

end Tokens

/-! ## The graph of statements -/

section Statements

variable {statements : List Statement} {g : Graph}

/-- Endpoints of chains whose names are not declared anywhere, in order. -/
def strays (statements : List Statement) : List Finding :=
  (((chains statements).flatMap Chain.endpoints).filter
    (fun e => e.node.name ∉ names (declarations statements))).map (undeclared ·.node)

/-- **The graph of statements**: a node for every declaration, an edge for every arrow, and nothing
else. Ids are numbered as long as 32 bits count them. -/
structure Draws (g : Graph) (statements : List Statement) : Prop where
  declared : ∀ d ∈ declarations statements,
    ∃ node, g.node? d.name.name = some node ∧ d.Introduces node
  only : ∀ name, (g.node? name).isSome → name ∈ names (declarations statements)
  once : g.duplicates = []
  edges : g.edges.map Edge.unnamed = arrows statements
  ids : g.edges.length < 2 ^ 32 →
    g.edges.map (·.id) = (List.range g.edges.length).map (fun i => "e" ++ toString i) ∧
      (g.edges.map (·.id)).Nodup

theorem edges_lower : (lower statements).1.edges = number (arrows statements) := by
  have hlinks : Chain.links = Chain.arrows := funext Chain.links_eq_arrows
  unfold lower arrows
  rw [hlinks]

/-- What is wrong with statements: first the declarations, then the endpoints of chains. -/
theorem findings_lower :
    (lower statements).2 = complaints (declarations statements) ++ strays statements := by
  have hfindings : (lowerNodes [] Graph.empty (declarations statements)).2 =
      complaints (declarations statements) := findings_lowerNodes [] fun _ => Iff.rfl
  have hstrays : (chains statements).flatMap
      (Chain.undeclared ((declarations statements).map (·.name.name))) = strays statements := by
    rw [strays, List.filter_flatMap, List.map_flatMap]
    refine List.flatMap_congr fun c _ => ?_
    unfold Chain.undeclared names
    congr 1
    refine List.filter_congr fun e _ => ?_
    rw [List.contains_eq_mem, decide_not]
  change (lowerNodes [] Graph.empty (declarations statements)).2 ++ _ = _
  rw [hfindings, hstrays]

theorem node?_lower {name : String} {node : Node} :
    (lower statements).1.node? name = some node ↔
      Asks [] (declarations statements) name node := by
  have hempty : ∀ name node, Graph.empty.node? name ≠ some node := nofun
  have hlowered : (lowerNodes [] Graph.empty (declarations statements)).1.node? name = some node ↔
      Graph.empty.node? name = some node ∨ Asks [] (declarations statements) name node :=
    node?_lowerNodes fun other held h => absurd h (hempty other held)
  exact hlowered.trans (or_iff_right (hempty name node))

theorem find?_of_nodup {ds : List Declaration} {d : Declaration} (hnames : (names ds).Nodup)
    (hd : d ∈ ds) : ds.find? (·.name.name == d.name.name) = some d := by
  have hfound : (ds.find? (·.name.name == d.name.name)).isSome :=
    List.find?_isSome.2 ⟨d, hd, beq_self_eq_true _⟩
  obtain ⟨other, hother⟩ := Option.isSome_iff_exists.1 hfound
  have hname := List.find?_some hother
  have heq := List.inj_on_of_nodup_map hnames (List.mem_of_find?_eq_some hother) hd
    (beq_iff_eq.1 hname)
  rw [hother, heq]

/-- **Statements become their graph** if nothing is wrong with their declarations. -/
theorem draws_lower (h : complaints (declarations statements) = []) :
    Draws (lower statements).1 statements := by
  obtain ⟨hnames, hblocks⟩ := complaints_eq_nil_iff.1 h
  refine ⟨?_, ?_, ?_, ?_, ?_⟩
  · intro d hd
    obtain ⟨node, hnode⟩ := d.exists_introduces (hblocks d hd)
    exact ⟨node, node?_lower.2 ⟨List.not_mem_nil, d, find?_of_nodup hnames hd, hnode⟩, hnode⟩
  · intro name hname
    obtain ⟨node, hnode⟩ := Option.isSome_iff_exists.1 hname
    obtain ⟨-, d, hfind, -⟩ := node?_lower.1 hnode
    have heq := List.find?_some hfind
    exact List.mem_map.2 ⟨d, List.mem_of_find?_eq_some hfind, beq_iff_eq.1 heq⟩
  · exact duplicates_lowerNodes fun _ _ h => by cases h
  · rw [edges_lower, unnamed_number]
    have hunnamed : ∀ e ∈ arrows statements, e.unnamed = id e := by
      intro e he
      obtain ⟨c, -, he⟩ := List.mem_flatMap.1 he
      exact unnamed_of_mem_arrows he
    rw [List.map_congr_left hunnamed, List.map_id]
  · rw [edges_lower, length_number]
    exact fun hlt => ⟨map_id_number hlt, nodup_map_id_number hlt⟩

theorem strays_eq_nil_iff :
    strays statements = [] ↔
      ∀ c ∈ chains statements, ∀ e ∈ c.endpoints,
        e.node.name ∈ names (declarations statements) := by
  rw [strays, List.map_eq_nil_iff, List.filter_eq_nil_iff]
  simp only [List.mem_flatMap, decide_eq_true_eq, not_not]
  constructor
  · intro h c hc e he
    exact h e ⟨c, hc, he⟩
  · rintro h e ⟨c, hc, he⟩
    exact h c hc e he

/-- Both ends of every edge have a node if every endpoint is declared. -/
theorem joined_of_draws (h : Draws g statements) (hstrays : strays statements = []) :
    ∀ e ∈ g.edges, (g.node? e.source).isSome ∧ (g.node? e.target).isSome := by
  have hnode : ∀ name ∈ names (declarations statements), (g.node? name).isSome := by
    intro name hname
    obtain ⟨d, hd, rfl⟩ := List.mem_map.1 hname
    obtain ⟨node, hnode, -⟩ := h.declared d hd
    rw [hnode]
    rfl
  intro e he
  have hunnamed : e.unnamed ∈ arrows statements := h.edges ▸ List.mem_map_of_mem he
  obtain ⟨c, hc, hedge⟩ := List.mem_flatMap.1 hunnamed
  obtain ⟨a, ha, b, hb, hsource, htarget⟩ := exists_endpoints_of_mem_arrows hedge
  have hdeclared := strays_eq_nil_iff.1 hstrays c hc
  exact ⟨hnode _ (hsource ▸ hdeclared a ha), hnode _ (htarget ▸ hdeclared b hb)⟩

end Statements

/-! ## Texts -/

/-- **What a text must be in order to have a graph**: without lexical faults, a sketch, its names
declared once, its blocks known, and its endpoints declared above or below. -/
structure Loadable (source : String) (statements : List Statement) : Prop where
  faultless : (lex source).faults = []
  spelled : Spells (lex source).lexemes statements
  distinct : (names (declarations statements)).Nodup
  known : ∀ d ∈ declarations statements, (Block.ofName? d.block.name).isSome
  declared : ∀ c ∈ chains statements, ∀ e ∈ c.endpoints,
    e.node.name ∈ names (declarations statements)

/-- An error of the grammar. -/
def grammarFinding (e : Located) : Finding := .error .sketchGrammar e.message e.span

/-- The lexical errors of a text. -/
def lexicalFindings (source : String) : List Finding := (lex source).faults.map grammarFinding

/-- All that is wrong with a text whose tokens spell statements. -/
def objections (source : String) (statements : List Statement) : List Finding :=
  lexicalFindings source ++ (complaints (declarations statements) ++ strays statements)

variable {source : String} {statements : List Statement}

theorem objections_eq_nil_iff (h : Spells (lex source).lexemes statements) :
    objections source statements = [] ↔ Loadable source statements := by
  rw [objections, List.append_eq_nil_iff, List.append_eq_nil_iff, lexicalFindings,
    List.map_eq_nil_iff, complaints_eq_nil_iff, strays_eq_nil_iff]
  constructor
  · rintro ⟨hfaults, ⟨hnames, hblocks⟩, hdeclared⟩
    exact ⟨hfaults, h, hnames, hblocks, hdeclared⟩
  · rintro ⟨hfaults, -, hnames, hblocks, hdeclared⟩
    exact ⟨hfaults, ⟨hnames, hblocks⟩, hdeclared⟩

/-- **A sketch that spells statements is loaded unless there is an objection to them.** -/
theorem load_of_spells (h : Spells (lex source).lexemes statements) :
    load source =
      if (objections source statements).isEmpty then .ok (lower statements).1
      else .error (objections source statements) := by
  have hparse : parse source =
      ⟨some ⟨statements, coveredSpan source.utf8ByteSize (lex source).lexemes⟩,
        (lex source).faults⟩ := by
    rw [parse_eq, statementsFrom_eq_ok_iff.2 h]
  rw [load, hparse, objections, ← findings_lower]
  rfl

theorem load_of_fault {fault : GrammarFault}
    (h : statementsFrom .lineStart (lex source).lexemes = .error fault) :
    load source = .error (lexicalFindings source ++
      [grammarFinding ⟨fault.message, fault.span source.utf8ByteSize⟩]) := by
  have hparse : parse source =
      ⟨none, (lex source).faults ++ [⟨fault.message, fault.span source.utf8ByteSize⟩]⟩ := by
    rw [parse_eq, h]
  rw [load, hparse]
  dsimp only
  rw [grammarFindings, List.map_append]
  rfl

theorem exists_fault_iff :
    (∃ fault, statementsFrom .lineStart (lex source).lexemes = .error fault) ↔
      ∀ statements, ¬ Spells (lex source).lexemes statements := by
  constructor
  · rintro ⟨fault, hfault⟩ statements h
    rw [statementsFrom_eq_ok_iff.2 h] at hfault
    cases hfault
  · intro h
    cases hread : statementsFrom .lineStart (lex source).lexemes with
    | ok statements => exact absurd (statementsFrom_eq_ok_iff.1 hread) (h statements)
    | error fault => exact ⟨fault, rfl⟩

theorem load_eq_ok_iff {g : Graph} :
    load source = .ok g ↔ ∃ statements, Loadable source statements ∧ g = (lower statements).1 := by
  constructor
  · intro hload
    by_cases hsketch : ∃ statements, Spells (lex source).lexemes statements
    · obtain ⟨statements, h⟩ := hsketch
      rw [load_of_spells h] at hload
      split at hload
      · next hnone =>
        have hloadable := (objections_eq_nil_iff h).1 (List.isEmpty_iff.1 hnone)
        exact ⟨statements, hloadable, (Except.ok.inj hload).symm⟩
      · cases hload
    · obtain ⟨fault, hfault⟩ := exists_fault_iff.2 (not_exists.1 hsketch)
      rw [load_of_fault hfault] at hload
      cases hload
  · rintro ⟨statements, hloadable, rfl⟩
    have hnone := (objections_eq_nil_iff hloadable.spelled).2 hloadable
    rw [load_of_spells hloadable.spelled, hnone, List.isEmpty_nil, if_pos rfl]

/-- Why a text is not loaded. -/
theorem findings_of_load {findings : List Finding} (hload : load source = .error findings) :
    findings ≠ [] ∧
      ((∃ fault, statementsFrom .lineStart (lex source).lexemes = .error fault ∧
          (∀ statements, ¬ Spells (lex source).lexemes statements) ∧
          findings = lexicalFindings source ++
            [grammarFinding ⟨fault.message, fault.span source.utf8ByteSize⟩]) ∨
        ∃ statements, Spells (lex source).lexemes statements ∧
          findings = objections source statements) := by
  by_cases hsketch : ∃ statements, Spells (lex source).lexemes statements
  · obtain ⟨statements, h⟩ := hsketch
    rw [load_of_spells h] at hload
    split at hload
    · cases hload
    · next hsome =>
      obtain rfl := Except.error.inj hload
      exact ⟨fun hnone => hsome (List.isEmpty_iff.2 hnone), Or.inr ⟨statements, h, rfl⟩⟩
  · have hnone := not_exists.1 hsketch
    obtain ⟨fault, hfault⟩ := exists_fault_iff.2 hnone
    rw [load_of_fault hfault] at hload
    obtain rfl := Except.error.inj hload
    have hne := List.append_ne_nil_of_right_ne_nil (lexicalFindings source)
      (List.cons_ne_nil (grammarFinding ⟨fault.message, fault.span source.utf8ByteSize⟩) [])
    exact ⟨hne, Or.inl ⟨fault, hfault, hnone, rfl⟩⟩

/-- **A text is loaded iff nothing is wrong with it.** Then its graph is the one that its statements
draw, and no warning is about its nodes. Otherwise all that is wrong with it is found and nothing
else: what is no token, and then the place where the tokens stop being a sketch, or, if they are
one, the declarations and the endpoints that are wrong. -/
theorem load_succeeds_or_explains (source : String) :
    ((∃ g, load source = .ok g) ↔ ∃ statements, Loadable source statements) ∧
    (∀ g, load source = .ok g → ∃ statements, Loadable source statements ∧ Draws g statements ∧
      g.edges.length = arrowCount (lex source).lexemes ∧
      ∀ w ∈ g.recompute.warnings, w.code ≠ some .danglingEdge ∧ w.code ≠ some .duplicateNode) ∧
    (∀ findings, load source = .error findings → findings ≠ [] ∧
      ((∃ fault, statementsFrom .lineStart (lex source).lexemes = .error fault ∧
          (∀ statements, ¬ Spells (lex source).lexemes statements) ∧
          findings = lexicalFindings source ++
            [grammarFinding ⟨fault.message, fault.span source.utf8ByteSize⟩]) ∨
        ∃ statements, Spells (lex source).lexemes statements ∧
          findings = lexicalFindings source ++
            (complaints (declarations statements) ++ strays statements))) := by
  refine ⟨⟨?_, ?_⟩, ?_, ?_⟩
  · rintro ⟨g, hload⟩
    obtain ⟨statements, hloadable, -⟩ := load_eq_ok_iff.1 hload
    exact ⟨statements, hloadable⟩
  · rintro ⟨statements, hloadable⟩
    exact ⟨_, load_eq_ok_iff.2 ⟨statements, hloadable, rfl⟩⟩
  · intro g hload
    obtain ⟨statements, hloadable, rfl⟩ := load_eq_ok_iff.1 hload
    have hdraws := draws_lower (complaints_eq_nil_iff.2 ⟨hloadable.distinct, hloadable.known⟩)
    have hjoined := joined_of_draws hdraws (strays_eq_nil_iff.2 hloadable.declared)
    refine ⟨statements, hloadable, hdraws, ?_, Graph.warnings_of_joined hdraws.once hjoined⟩
    rw [edges_lower, length_number, hloadable.spelled.arrowCount]
  · intro findings hload
    exact findings_of_load hload

/-- A chain may stand above what it connects. -/
example : (load "a -> b\nb = Flatten()\na = Input()").toOption.map (·.edges) =
    some [⟨"e0", "a", "out", "b", "in"⟩] := by decide +kernel

/-- A name of an unknown block is declared all the same. -/
example : (match load "a -> b\na -> c\nb = Nothing()\na = Input()\na = Flatten()" with
    | .ok _ => []
    | .error findings => findings.map (·.diagnostic.code)) =
      [some .unknownBlockType, some .redeclaredNode, some .undeclaredNode] := by decide +kernel

end Sketch

end ShapeFlow
