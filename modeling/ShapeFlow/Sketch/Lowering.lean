import ShapeFlow.Diagnostic
import ShapeFlow.Graph.Basic
import ShapeFlow.Sketch.Parser

/-!
# Graphs of sketches

Declarations become nodes and chains become edges. All declarations are collected first, so a chain
may name a node that is declared below it. Edges get the ids `e0`, `e1` and so on in the order of
the text.

* `Sketch.lower`: the graph of a sketch as far as it goes, and its errors.
* `Sketch.load`: the graph of a text, or all of its errors.
-/

namespace ShapeFlow.Sketch

/-- A diagnostic about some bytes of a sketch. -/
structure Finding where
  diagnostic : Diagnostic
  span : Span
deriving DecidableEq, Repr, Inhabited

namespace Finding

/-- An error about some bytes. -/
def error (code : Code) (message : String) (span : Span) (hint : Option String := none) :
    Finding :=
  ⟨{ level := .error, code := some code, message := message, hint := hint }, span⟩

/-- The line and the column of an offset in characters, from a line and a column on; columns count
bytes. -/
def positionFrom : (line column : Nat) → List Char → (offset : Nat) → Nat × Nat
  | line, column, [], _ => (line, column)
  | line, column, c :: rest, offset =>
    if offset = 0 then (line, column)
    else if c = '\n' then positionFrom (line + 1) 1 rest (offset - 1)
    else positionFrom line (column + c.utf8Size) rest (offset - c.utf8Size)

/-- The line and the column at which a finding starts, both from 1 on. -/
def position (finding : Finding) (source : String) : Nat × Nat :=
  positionFrom 1 1 source.toList finding.span.start

/-- A finding with its path, line and column. -/
def render (finding : Finding) (source path : String) : String :=
  let (line, column) := finding.position source
  s!"{path}:{line}:{column}: " ++ finding.diagnostic.render

end Finding

/-- A name declared again. -/
def redeclared (name : Ident) : Finding :=
  .error .redeclaredNode ("node '" ++ name.name ++ "' is declared more than once") name.span

/-- A name that no declaration introduces. -/
def undeclared (name : Ident) : Finding :=
  .error .undeclaredNode ("node '" ++ name.name ++ "' is not declared") name.span

/-- A name that is no block type. -/
def unknownBlock (name : Ident) : Finding :=
  .error .unknownBlockType (Block.unknownMessage name.name) name.span
    (some ("known types: " ++ ", ".intercalate (Block.all.map Block.name)))

/-- The parameter that a value stands for. -/
def Value.param : Value → Param.Value
  | number x _ => .number x
  | flag b _ => .flag b
  | text s _ => .text s
  | numbers xs _ => .numbers xs

/-- The parameters of a declaration: the activation function that its block name implies, and then
its arguments in order. -/
def Declaration.params (d : Declaration) : Params :=
  let start : Params := match Block.impliedActivation? d.block.name with
    | some function => Table.empty.insert "activation" (.text function)
    | none => Table.empty
  d.arguments.foldl (fun params arg => params.insert arg.key.name arg.value.param) start

/-- The node of a declaration. -/
def Declaration.node (d : Declaration) : Except Finding Node :=
  match Block.ofName? d.block.name with
  | some block => .ok ⟨block, d.params⟩
  | none => .error (unknownBlock d.block)

/-- The declarations of a sketch in order. -/
def declarations : List Statement → List Declaration
  | [] => []
  | .node d :: rest => d :: declarations rest
  | .chain _ :: rest => declarations rest

/-- The chains of a sketch in order. -/
def chains : List Statement → List Chain
  | [] => []
  | .node _ :: rest => chains rest
  | .chain c :: rest => c :: chains rest

/-- Inserts the nodes of declarations, given the names declared before them. The first declaration
of a name counts, even if its block type is unknown. -/
def lowerNodes : (declared : List String) → Graph → List Declaration → Graph × List Finding
  | _, g, [] => (g, [])
  | declared, g, d :: rest =>
    if declared.contains d.name.name then
      let (g, findings) := lowerNodes declared g rest
      (g, redeclared d.name :: findings)
    else
      match d.node with
      | .ok node => lowerNodes (d.name.name :: declared) (g.insert d.name.name node) rest
      | .error finding =>
        let (g, findings) := lowerNodes (d.name.name :: declared) g rest
        (g, finding :: findings)

/-- The edges along endpoints, still without ids. Only the first endpoint of a chain can name an
output handle; the handle of a later one belongs to the edge into it. -/
def links (sourceHandle : String) : List Endpoint → List Edge
  | a :: b :: rest =>
    ⟨"", a.node.name, sourceHandle, b.node.name,
      (b.handle.map Ident.name).getD Block.defaultInput⟩ :: links Block.defaultOutput (b :: rest)
  | _ => []

/-- The edges of a chain, still without ids. -/
def Chain.links (c : Chain) : List Edge :=
  let handle := (c.endpoints.head?.bind Endpoint.handle).map Ident.name
  Sketch.links (handle.getD Block.defaultOutput) c.endpoints

/-- The id of an edge by its place; places are counted in 32 bits. -/
def edgeId (place : UInt32) : EdgeId := "e" ++ toString place.toNat

/-- Edges with their ids in order. -/
def number (edges : List Edge) : List Edge :=
  edges.zipIdx.map (fun (edge, i) => { edge with id := edgeId (UInt32.ofNat i) })

/-- The endpoints of a chain that no declaration introduces. -/
def Chain.undeclared (declared : List String) (c : Chain) : List Finding :=
  (c.endpoints.filter (fun e => !declared.contains e.node.name)).map (Sketch.undeclared ·.node)

/-- The graph of statements as far as it goes, and the errors: those of declarations first. -/
def lower (statements : List Statement) : Graph × List Finding :=
  let declarations := declarations statements
  let chains := chains statements
  let (g, findings) := lowerNodes [] Graph.empty declarations
  ({ g with edges := number (chains.flatMap Chain.links) },
    findings ++ chains.flatMap (Chain.undeclared (declarations.map (·.name.name))))

/-- The errors of a parsed text. -/
def grammarFindings (parsed : Parsed) : List Finding :=
  parsed.errors.map (fun e => .error .sketchGrammar e.message e.span)

/-- The graph of a text, or all of its errors: those of the grammar first. -/
def load (source : String) : Except (List Finding) Graph :=
  let parsed := parse source
  let findings := grammarFindings parsed
  match parsed.sketch with
  | none => .error findings
  | some sketch =>
    let (g, more) := lower sketch.statements
    if (findings ++ more).isEmpty then .ok g else .error (findings ++ more)

end ShapeFlow.Sketch
