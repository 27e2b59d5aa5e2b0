import ShapeFlow.Proofs.Lowering
import ShapeFlow.Proofs.Outcome
import ShapeFlow.Proofs.Prediction
import ShapeFlow.Proofs.Spacing

/-!
# Sketches without their places

Every part of a sketch knows its bytes, but no decision depends on them: parsing and lowering do
the same with parts that have lost their places.

* `Sketch.Position.next?_unplaced`: a step of the parser keeps no more of the places than it is
  given.
* `Sketch.statementsFrom_unplaced`, `Sketch.lower_unplaced`: **tokens without places have the same
  statements and the same graph**, but for the places in them.
* `Sketch.layout_does_not_matter`: **layout between tokens does not matter**, neither to the tokens
  of a text nor to its sketch or its graph.
-/

namespace ShapeFlow.Sketch

/-- The place of parts that have lost theirs. -/
def nowhere : Span := ⟨0, 0⟩

/-! ## Parts without their places -/

/-- A token without its place. -/
def Lexeme.unplaced (l : Lexeme) : Lexeme := { l with span := nowhere }

/-- A name without its place. -/
def Ident.unplaced (name : Ident) : Ident := { name with span := nowhere }

/-- A value without its place. -/
def Value.unplaced : Value → Value
  | .number x _ => .number x nowhere
  | .flag b _ => .flag b nowhere
  | .text s _ => .text s nowhere
  | .numbers xs _ => .numbers xs nowhere

/-- An argument without its places. -/
def Argument.unplaced (a : Argument) : Argument := ⟨a.key.unplaced, a.value.unplaced⟩

/-- A declaration without its places. -/
def Declaration.unplaced (d : Declaration) : Declaration :=
  ⟨d.name.unplaced, d.block.unplaced, d.arguments.map Argument.unplaced, nowhere⟩

/-- An endpoint without its places. -/
def Endpoint.unplaced (e : Endpoint) : Endpoint :=
  ⟨e.node.unplaced, e.handle.map Ident.unplaced, nowhere⟩

/-- A chain without its places. -/
def Chain.unplaced (c : Chain) : Chain := ⟨c.endpoints.map Endpoint.unplaced, nowhere⟩

/-- A statement without its places. -/
def Statement.unplaced : Statement → Statement
  | .node d => .node d.unplaced
  | .chain c => .chain c.unplaced

/-- The head of a declaration without its places. -/
def Head.unplaced (head : Head) : Head := ⟨head.name.unplaced, head.block.unplaced⟩

/-- A message without its place. -/
def Located.unplaced (message : Located) : Located := { message with span := nowhere }

/-- A finding without its place. -/
def Finding.unplaced (f : Finding) : Finding := { f with span := nowhere }

/-- A position whose parts have lost their places. -/
def Position.unplaced : Position → Position
  | lineStart => lineStart
  | firstName first => firstName first.unplaced
  | declared name => declared name.unplaced
  | blockName head => blockName head.unplaced
  | argument head arguments => argument head.unplaced (arguments.map Argument.unplaced)
  | key head arguments name =>
    key head.unplaced (arguments.map Argument.unplaced) name.unplaced
  | value head arguments name =>
    value head.unplaced (arguments.map Argument.unplaced) name.unplaced
  | argumentEnd head arguments => argumentEnd head.unplaced (arguments.map Argument.unplaced)
  | item head arguments name _ items =>
    item head.unplaced (arguments.map Argument.unplaced) name.unplaced 0 items
  | itemEnd head arguments name _ items =>
    itemEnd head.unplaced (arguments.map Argument.unplaced) name.unplaced 0 items
  | declarationEnd declaration => declarationEnd declaration.unplaced
  | firstDot first => firstDot first.unplaced
  | firstHandle first => firstHandle first.unplaced
  | arrow endpoints => arrow (endpoints.map Endpoint.unplaced)
  | laterName endpoints node => laterName (endpoints.map Endpoint.unplaced) node.unplaced
  | laterDot endpoints node => laterDot (endpoints.map Endpoint.unplaced) node.unplaced
  | laterHandle endpoints last => laterHandle (endpoints.map Endpoint.unplaced) last.unplaced

/-- A fault of the grammar without its places. -/
def GrammarFault.unplaced (fault : GrammarFault) : GrammarFault :=
  ⟨fault.found.map Lexeme.unplaced, fault.position.unplaced⟩

/-- What was found in a text, without the places. -/
def Lexed.unplaced (lexed : Lexed) : Lexed :=
  ⟨lexed.lexemes.map Lexeme.unplaced, lexed.faults.map Located.unplaced⟩

/-- What became of a text, without the places in it. -/
def Parsed.unplaced (parsed : Parsed) : Parsed :=
  ⟨parsed.sketch.map fun sketch => ⟨sketch.statements.map Statement.unplaced, nowhere⟩,
    parsed.errors.map Located.unplaced⟩

/-! ## Parsing without places -/

variable {source other : String} {statements : List Statement} {ts us : List Lexeme}

theorem Endpoint.bare_unplaced (node : Ident) : (bare node).unplaced = bare node.unplaced := rfl

theorem Endpoint.withHandle_unplaced (node handle : Ident) :
    (withHandle node handle).unplaced = withHandle node.unplaced handle.unplaced := rfl

theorem Chain.ofReverse_unplaced (endpoints : List Endpoint) (last : Endpoint) :
    (ofReverse endpoints last).unplaced =
      ofReverse (endpoints.map Endpoint.unplaced) last.unplaced := by
  have hstart : ((endpoints.map Endpoint.unplaced).getLast?.getD last.unplaced).span = nowhere := by
    rw [List.getLast?_map]
    cases endpoints.getLast? <;> rfl
  simp only [ofReverse, unplaced, hstart, List.map_append, List.map_reverse]
  rfl

namespace Position

/-- **A step of the parser** goes the same way without places. -/
theorem next?_unplaced (p : Position) (l : Lexeme) :
    p.unplaced.next? l.unplaced = (p.next? l).map unplaced := by
  obtain ⟨t, span⟩ := l
  -- Places are kept or joined, and no step looks at them.
  cases p <;> cases t <;>
    simp [next?, unplaced, Lexeme.unplaced, Declaration.unplaced, Head.unplaced, Argument.unplaced,
      Value.unplaced, Endpoint.bare_unplaced, Endpoint.withHandle_unplaced, Ident.unplaced, nowhere]

/-- Where a line may end, it may end with or without places. -/
theorem ending?_unplaced (p : Position) :
    p.unplaced.ending? = p.ending?.map (List.map Statement.unplaced) := by
  cases p <;>
    simp [ending?, unplaced, Statement.unplaced, Chain.ofReverse_unplaced, Endpoint.bare_unplaced]

theorem expectations_unplaced (p : Position) : p.unplaced.expectations = p.expectations := by
  cases p <;> rfl

end Position

theorem GrammarFault.message_unplaced (fault : GrammarFault) :
    fault.unplaced.message = fault.message := by
  obtain ⟨found, p⟩ := fault
  cases found <;> simp only [message, unplaced, p.expectations_unplaced] <;> rfl

/-- **Tokens without places have the same statements**, but for the places in them, or the same
fault. -/
theorem statementsFrom_unplaced (p : Position) (ts : List Lexeme) :
    statementsFrom p.unplaced (ts.map Lexeme.unplaced) =
      ((statementsFrom p ts).map (List.map Statement.unplaced)).mapError
        GrammarFault.unplaced := by
  induction ts generalizing p with
  | nil =>
    rw [List.map_nil, statementsFrom, statementsFrom, p.ending?_unplaced]
    cases p.ending? <;> rfl
  | cons t ts ih =>
    have htoken : t.unplaced.token = t.token := rfl
    rw [List.map_cons, statementsFrom, statementsFrom, htoken, p.ending?_unplaced,
      p.next?_unplaced]
    split
    -- A line end closes the statement and reading starts over, any other token is a step.
    · cases p.ending? with
      | none => rfl
      | some ended =>
        have hrest := ih .lineStart
        rw [Position.unplaced] at hrest
        simp only [Option.map_some, hrest]
        cases statementsFrom .lineStart ts with
        | error fault => rfl
        | ok statements => exact congrArg Except.ok List.map_append.symm
    · cases p.next? t with
      | none => rfl
      | some q => exact ih q

/-- **What is parsed depends on the tokens and the faults alone**, but for the places. -/
theorem parse_congr (h : (lex other).unplaced = (lex source).unplaced) :
    (parse other).unplaced = (parse source).unplaced := by
  obtain ⟨htokens, hfaults⟩ := Lexed.mk.inj h
  have hstatements := statementsFrom_unplaced .lineStart (lex other).lexemes
  rw [htokens, statementsFrom_unplaced .lineStart] at hstatements
  rw [parse_eq, parse_eq]
  -- Both texts have statements, or both have a fault with one message.
  cases hsource : statementsFrom .lineStart (lex source).lexemes <;>
    cases hother : statementsFrom .lineStart (lex other).lexemes <;>
    rw [hsource, hother] at hstatements
  case error.error fault found =>
    obtain hfault : fault.unplaced = found.unplaced := Except.error.inj hstatements
    have hmessage : fault.message = found.message := by
      rw [← fault.message_unplaced, hfault, found.message_unplaced]
    simp only [Parsed.unplaced, List.map_append, hfaults, Located.unplaced, List.map_cons,
      List.map_nil, hmessage, Option.map_none]
  case ok.ok statements others =>
    obtain hsame : statements.map Statement.unplaced = others.map Statement.unplaced :=
      Except.ok.inj hstatements
    simp only [Parsed.unplaced, Option.map_some, hsame, hfaults]
  all_goals cases hstatements

/-! ## Lowering without places -/

theorem Value.param_unplaced (v : Value) : v.unplaced.param = v.param := by
  cases v <;> rfl

theorem Declaration.params_unplaced (d : Declaration) : d.unplaced.params = d.params := by
  simp only [params, unplaced, List.foldl_map, Argument.unplaced, Value.param_unplaced,
    Ident.unplaced]

/-- A declaration without its places introduces the same node. -/
theorem Declaration.node_unplaced {d : Declaration} {node : Node} (h : d.node = .ok node) :
    d.unplaced.node = .ok node := by
  have hname : d.unplaced.block.name = d.block.name := rfl
  unfold Declaration.node at h ⊢
  rw [d.params_unplaced, hname]
  split at h
  · exact h
  · cases h

theorem declarations_unplaced (statements : List Statement) :
    declarations (statements.map Statement.unplaced) =
      (declarations statements).map Declaration.unplaced := by
  induction statements with
  | nil => rfl
  | cons s statements ih => cases s <;> simp [Statement.unplaced, declarations, ih]

theorem chains_unplaced (statements : List Statement) :
    chains (statements.map Statement.unplaced) = (chains statements).map Chain.unplaced := by
  induction statements with
  | nil => rfl
  | cons s statements ih => cases s <;> simp [Statement.unplaced, chains, ih]

/-- Declarations are taken as nodes by their names and parameters, and only findings keep places. -/
theorem lowerNodes_unplaced (declared : List String) (g : Graph) (ds : List Declaration) :
    lowerNodes declared g (ds.map Declaration.unplaced) =
      ((lowerNodes declared g ds).1, (lowerNodes declared g ds).2.map Finding.unplaced) := by
  induction ds generalizing declared g with
  | nil => rfl
  | cons d ds ih =>
    rw [List.map_cons]
    by_cases hdeclared : d.name.name ∈ declared
    · rw [lowerNodes_redeclared (d := d.unplaced) hdeclared, lowerNodes_redeclared hdeclared, ih]
      rfl
    cases hblock : Block.ofName? d.block.name with
    | none =>
      rw [lowerNodes_unknown (d := d.unplaced) hdeclared hblock,
        lowerNodes_unknown hdeclared hblock, ih]
      rfl
    | some block =>
      have hnode : d.node = .ok ⟨block, d.params⟩ := by rw [Declaration.node, hblock]
      have hbare : d.unplaced.node = .ok ⟨block, d.params⟩ := Declaration.node_unplaced hnode
      rw [lowerNodes_introduced (d := d.unplaced) hdeclared (Declaration.node_eq_ok_iff.1 hbare),
        lowerNodes_introduced hdeclared (Declaration.node_eq_ok_iff.1 hnode)]
      exact ih _ _

theorem links_unplaced (sourceHandle : String) (endpoints : List Endpoint) :
    links sourceHandle (endpoints.map Endpoint.unplaced) = links sourceHandle endpoints := by
  induction endpoints generalizing sourceHandle with
  | nil => rfl
  | cons a endpoints ih =>
    cases endpoints with
    | nil => rfl
    | cons b endpoints =>
      have hrest := ih Block.defaultOutput
      rw [List.map_cons] at hrest ⊢
      rw [List.map_cons, links, links, hrest, Endpoint.unplaced, Endpoint.unplaced]
      cases b.handle <;> rfl

theorem Chain.links_unplaced (c : Chain) : c.unplaced.links = c.links := by
  unfold links
  have hhead : (c.unplaced.endpoints.head?.bind Endpoint.handle).map Ident.name =
      (c.endpoints.head?.bind Endpoint.handle).map Ident.name := by
    rw [unplaced, List.head?_map]
    cases c.endpoints.head? with
    | none => rfl
    | some e =>
      obtain ⟨node, handle, span⟩ := e
      cases handle <;> rfl
  rw [hhead]
  exact Sketch.links_unplaced _ _

theorem Chain.undeclared_unplaced (declared : List String) (c : Chain) :
    c.unplaced.undeclared declared = (c.undeclared declared).map Finding.unplaced := by
  simp only [undeclared, unplaced, List.filter_map, List.map_map]
  rfl

/-- **Statements without places have the same graph** and the same errors, but for their places. -/
theorem lower_unplaced (statements : List Statement) :
    lower (statements.map Statement.unplaced) =
      ((lower statements).1, (lower statements).2.map Finding.unplaced) := by
  unfold lower
  simp only [declarations_unplaced, chains_unplaced, lowerNodes_unplaced, List.flatMap_map,
    Chain.links_unplaced, Chain.undeclared_unplaced, List.map_append, List.map_flatMap,
    List.map_map]
  rfl

/-- The graph of what was parsed, or all errors. -/
def Parsed.graph (parsed : Parsed) : Except (List Finding) Graph :=
  match parsed.sketch with
  | none => .error (grammarFindings parsed)
  | some sketch =>
    let findings := grammarFindings parsed ++ (lower sketch.statements).2
    if findings.isEmpty then .ok (lower sketch.statements).1 else .error findings

theorem load_eq_graph (source : String) : load source = (parse source).graph := rfl

theorem grammarFindings_unplaced (parsed : Parsed) :
    grammarFindings parsed.unplaced = (grammarFindings parsed).map Finding.unplaced := by
  simp only [grammarFindings, Parsed.unplaced, List.map_map]
  rfl

theorem Parsed.graph_unplaced (parsed : Parsed) :
    parsed.unplaced.graph = parsed.graph.mapError (List.map Finding.unplaced) := by
  unfold graph
  rw [grammarFindings_unplaced]
  obtain ⟨_ | sketch, errors⟩ := parsed
  · rfl
  · simp only [unplaced, Option.map_some, lower_unplaced, ← List.map_append, List.isEmpty_map]
    split <;> rfl

/-- **The graph depends on the tokens and the faults alone**, but for the places of errors. -/
theorem load_congr (h : (lex other).unplaced = (lex source).unplaced) :
    (load other).mapError (List.map Finding.unplaced) =
      (load source).mapError (List.map Finding.unplaced) := by
  rw [load_eq_graph, load_eq_graph, ← Parsed.graph_unplaced, ← Parsed.graph_unplaced,
    parse_congr h]

/-! ## Layout between tokens -/

/-- Without their places, the tokens of a text that is only spaced in another way are the same. -/
theorem unplaced_lex_respaced (h : (lex source).faults = []) :
    (lex (respaced source)).unplaced = (lex source).unplaced := by
  obtain ⟨hfaults, htokens⟩ := lex_respaced source
  have hunplaced : ∀ ls : List Lexeme,
      ls.map Lexeme.unplaced = (ls.map Lexeme.token).map (⟨·, nowhere⟩) := by
    intro ls
    rw [List.map_map]
    rfl
  rw [Lexed.unplaced, Lexed.unplaced, hunplaced, hunplaced, htokens, hfaults, h]

/-- **Layout between tokens does not matter.** The tokens of a text without lexical faults, written
as they are there with single spaces between them, are read again; they form the same sketch or have
the same error, but for places; and the text has the same graph, or the same errors, but for their
places. -/
theorem layout_does_not_matter (h : (lex source).faults = []) :
    (lex (respaced source)).faults = [] ∧
    (lex (respaced source)).lexemes.map Lexeme.token = (lex source).lexemes.map Lexeme.token ∧
    (parse (respaced source)).unplaced = (parse source).unplaced ∧
    (load (respaced source)).mapError (List.map Finding.unplaced) =
      (load source).mapError (List.map Finding.unplaced) ∧
    ∀ g, load (respaced source) = .ok g ↔ load source = .ok g := by
  have hsame := unplaced_lex_respaced h
  have hload := load_congr hsame
  refine ⟨(lex_respaced source).1, (lex_respaced source).2, parse_congr hsame, hload, fun g => ?_⟩
  rw [← mapError_eq_ok_iff (f := List.map Finding.unplaced), hload, mapError_eq_ok_iff]

/-- A text with a comment, with a blank, a hash and a line end inside of quotes, and with nothing
between most of its tokens. -/
def denseText : String :=
  "x=Input(dataset=\"a # b\n\")# note\n\n\ty = Concat(axis=-1e+0,)\nx->y.in\r\n"

theorem layout_does_not_matter_dense :
    (lex denseText).faults = [] ∧
    respaced denseText =
      "x = Input ( dataset = \"a # b\n\" ) \n\n y = Concat ( axis = -1e+0 , ) \n x -> y . in \n" ∧
    (parse (respaced denseText)).unplaced = (parse denseText).unplaced ∧
    ∀ g, load (respaced denseText) = .ok g ↔ load denseText = .ok g := by
  have hfaults : (lex denseText).faults = [] := by decide +kernel
  obtain ⟨-, -, hparse, -, hload⟩ := layout_does_not_matter hfaults
  exact ⟨hfaults, by decide +kernel, hparse, hload⟩

end ShapeFlow.Sketch
