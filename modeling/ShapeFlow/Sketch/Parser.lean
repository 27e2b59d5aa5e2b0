import ShapeFlow.Sketch.Combinator
import ShapeFlow.Sketch.Statement

/-!
# Parsing sketches

    sketch      := newline* (statement (newline+ statement)*)? newline*
    statement   := declaration | chain
    declaration := ident '=' ident '(' (argument (',' argument)* ','?)? ')'
    argument    := ident '=' value
    value       := number | text | ident | 'true' | 'false' | '[' (number (',' number)* ','?)? ']'
    chain       := endpoint ('->' endpoint)+
    endpoint    := ident ('.' ident)?

* `Sketch.Parser.sketch`: the grammar, one parser for each of its rules.
* `Sketch.parse`: the sketch of a text, or the place where its tokens stop being one.
-/

namespace ShapeFlow.Sketch

namespace Parser

/-- A name. -/
def ident : Parser Ident :=
  one
    (fun l =>
      match l.token with
      | .ident name => some ⟨name, l.span⟩
      | _ => none)
    (.token (Token.ident "").render)

/-! ## Values -/

/-- A number of a list. -/
def number : Parser Double :=
  select fun l =>
    match l.token with
    | .number x => some x
    | _ => none

/-- Numbers between brackets. -/
def numbers : Parser Value :=
  ((number.separatedBy (just .comma)).delimitedBy (just .openBracket) (just .closeBracket)).mapWith
    Value.numbers

/-- A number, a truth value or a text. -/
def literal : Parser Value :=
  select fun l =>
    match l.token with
    | .number x => some (.number x l.span)
    | .flag b => some (.flag b l.span)
    | .text s => some (.text s l.span)
    | _ => none

/-- The value of an argument. A bare name is a text. -/
def value : Parser Value :=
  numbers.or (literal.or (ident.map fun name => .text name.name name.span))

/-! ## Declarations -/

/-- A named argument. -/
def argument : Parser Argument :=
  ((ident.thenIgnore (just .equals)).andThen value).map fun (key, value) => ⟨key, value⟩

/-- Arguments between parentheses. -/
def arguments : Parser (List Argument) :=
  (argument.separatedBy (just .comma)).delimitedBy (just .openParen) (just .closeParen)

/-- The declaration of a node. -/
def declaration : Parser Statement :=
  (((ident.thenIgnore (just .equals)).andThen ident).andThen arguments).mapWith
    fun ((name, block), arguments) span => .node ⟨name, block, arguments, span⟩

/-! ## Chains -/

/-- A node, with a handle if one is named. -/
def endpoint : Parser Endpoint :=
  (ident.andThen ((just .dot).ignoreThen ident).orNot).mapWith
    fun (node, handle) span => ⟨node, handle, span⟩

/-- An arrow and the endpoint that it leads to. -/
def link : Parser Endpoint := (just .arrow).ignoreThen endpoint

/-- Two endpoints or more, connected one after the other. -/
def chain : Parser Statement :=
  (endpoint.andThen (link.repeated 1)).mapWith
    fun (first, others) span => .chain ⟨first :: others, span⟩

/-! ## Sketches -/

/-- A line of a sketch. -/
def statement : Parser Statement := declaration.or chain

/-- Line ends, at least a given number. -/
def lineEnds (least : Nat) : Parser (List Lexeme) := (just .newline).repeated least

/-- Statements on lines of their own. -/
def sketch : Parser Sketch :=
  (((lineEnds 0).ignoreThen (statement.separatedBy (lineEnds 1))).thenIgnore (lineEnds 0)).mapWith
    fun statements span => ⟨statements, span⟩

end Parser

/-- What became of a text: its sketch unless its tokens form none, and its errors, those of single
characters first. -/
structure Parsed where
  sketch : Option Sketch
  errors : List Located
deriving DecidableEq, Inhabited

/-- The sketch of a text. Text that starts no token is an error, but does not keep the tokens from
forming a sketch. Irreducible, since what is done with a sketch should not unfold how it is read. -/
@[irreducible]
def parse (source : String) : Parsed :=
  let lexed := lex source
  let size := source.utf8ByteSize
  let reply := (Parser.sketch.thenIgnore .finish) size lexed.lexemes
  match reply.value with
  | some (sketch, _) => ⟨some sketch, lexed.faults⟩
  | none =>
    let errors := (DeadEnd.furthest reply.misses).toList.map fun place =>
      (⟨place.message, place.span size⟩ : Located)
    ⟨none, lexed.faults ++ errors⟩

end ShapeFlow.Sketch
