import ShapeFlow.Sketch.Parser

/-!
# Positions in a sketch

The grammar of sketches needs no look-ahead: after every token there is one position, which says
which tokens may follow. So a sketch can be read without going back.

* `Sketch.Position.next?`: the position behind a token, if the token may follow.
* `Sketch.statementsFrom`: the statements that tokens spell, or the first token that cannot follow.
-/

namespace ShapeFlow.Sketch

/-- The declared name and its block. -/
structure Head where
  name : Ident
  block : Ident
deriving DecidableEq, Repr, Inhabited

/-- A place between two tokens of a sketch, with what its statement holds so far. Lists are in
reverse order. -/
inductive Position where
  /-- At the start or behind a line end. -/
  | lineStart
  /-- Behind the first name of a statement. -/
  | firstName (first : Ident)
  /-- Behind the `=` of a declaration. -/
  | declared (name : Ident)
  /-- Behind the block of a declaration. -/
  | blockName (head : Head)
  /-- Behind `(` or the comma between arguments. -/
  | argument (head : Head) (arguments : List Argument)
  /-- Behind the key of an argument. -/
  | key (head : Head) (arguments : List Argument) (key : Ident)
  /-- Behind the `=` of an argument. -/
  | value (head : Head) (arguments : List Argument) (key : Ident)
  /-- Behind an argument. -/
  | argumentEnd (head : Head) (arguments : List Argument)
  /-- Behind `[` or the comma between numbers. -/
  | item (head : Head) (arguments : List Argument) (key : Ident) (start : Nat) (items : List Double)
  /-- Behind a number of a list. -/
  | itemEnd (head : Head) (arguments : List Argument) (key : Ident) (start : Nat)
      (items : List Double)
  /-- Behind a declaration. -/
  | declarationEnd (declaration : Declaration)
  /-- Behind the point of the first endpoint. -/
  | firstDot (first : Ident)
  /-- Behind the handle of the first endpoint. -/
  | firstHandle (first : Endpoint)
  /-- Behind an arrow. -/
  | arrow (endpoints : List Endpoint)
  /-- Behind the name of a later endpoint. -/
  | laterName (endpoints : List Endpoint) (node : Ident)
  /-- Behind the point of a later endpoint. -/
  | laterDot (endpoints : List Endpoint) (node : Ident)
  /-- Behind the handle of a later endpoint. -/
  | laterHandle (endpoints : List Endpoint) (last : Endpoint)
deriving DecidableEq, Inhabited

/-- An endpoint without a handle. -/
def Endpoint.bare (node : Ident) : Endpoint := ⟨node, none, node.span⟩

/-- An endpoint with a handle. -/
def Endpoint.withHandle (node handle : Ident) : Endpoint :=
  ⟨node, some handle, ⟨node.span.start, handle.span.stop⟩⟩

/-- A chain of endpoints given in reverse order, the last one apart. -/
def Chain.ofReverse (endpoints : List Endpoint) (last : Endpoint) : Chain :=
  let start := ((endpoints.getLast?).getD last).span.start
  ⟨endpoints.reverse ++ [last], ⟨start, last.span.stop⟩⟩

namespace Position

/-- The position behind a token other than a line end, if the token may follow. -/
def next? (p : Position) (lexeme : Lexeme) : Option Position :=
  let span := lexeme.span
  match p, lexeme.token with
  | lineStart, .ident name => some (firstName ⟨name, span⟩)
  | firstName first, .equals => some (declared first)
  | firstName first, .dot => some (firstDot first)
  | firstName first, .arrow => some (arrow [.bare first])
  | declared name, .ident block => some (blockName ⟨name, ⟨block, span⟩⟩)
  | blockName head, .openParen => some (argument head [])
  | argument head arguments, .ident name => some (key head arguments ⟨name, span⟩)
  | argument head arguments, .closeParen =>
    some (declarationEnd
      ⟨head.name, head.block, arguments.reverse, ⟨head.name.span.start, span.stop⟩⟩)
  | key head arguments name, .equals => some (value head arguments name)
  | value head arguments name, .number x =>
    some (argumentEnd head (⟨name, .number x span⟩ :: arguments))
  | value head arguments name, .flag b =>
    some (argumentEnd head (⟨name, .flag b span⟩ :: arguments))
  | value head arguments name, .text s =>
    some (argumentEnd head (⟨name, .text s span⟩ :: arguments))
  | value head arguments name, .ident s =>
    some (argumentEnd head (⟨name, .text s span⟩ :: arguments))
  | value head arguments name, .openBracket => some (item head arguments name span.start [])
  | argumentEnd head arguments, .comma => some (argument head arguments)
  | argumentEnd head arguments, .closeParen =>
    some (declarationEnd
      ⟨head.name, head.block, arguments.reverse, ⟨head.name.span.start, span.stop⟩⟩)
  | item head arguments name start items, .number x =>
    some (itemEnd head arguments name start (x :: items))
  | item head arguments name start items, .closeBracket =>
    some (argumentEnd head (⟨name, .numbers items.reverse ⟨start, span.stop⟩⟩ :: arguments))
  | itemEnd head arguments name start items, .comma => some (item head arguments name start items)
  | itemEnd head arguments name start items, .closeBracket =>
    some (argumentEnd head (⟨name, .numbers items.reverse ⟨start, span.stop⟩⟩ :: arguments))
  | firstDot first, .ident name => some (firstHandle (.withHandle first ⟨name, span⟩))
  | firstHandle first, .arrow => some (arrow [first])
  | arrow endpoints, .ident name => some (laterName endpoints ⟨name, span⟩)
  | laterName endpoints node, .dot => some (laterDot endpoints node)
  | laterName endpoints node, .arrow => some (arrow (.bare node :: endpoints))
  | laterDot endpoints node, .ident name =>
    some (laterHandle endpoints (.withHandle node ⟨name, span⟩))
  | laterHandle endpoints last, .arrow => some (arrow (last :: endpoints))
  | _, _ => none

/-- The statements that end here, if a line or the text may end here. -/
def ending? : Position → Option (List Statement)
  | lineStart => some []
  | declarationEnd declaration => some [.node declaration]
  | laterName endpoints node => some [.chain (.ofReverse endpoints (.bare node))]
  | laterHandle endpoints last => some [.chain (.ofReverse endpoints last)]
  | _ => none

/-- What may follow. -/
def expectations : Position → List Expectation
  | lineStart => [.token "<newline>", .token "<ident>", .endOfInput]
  | firstName _ => [.token "=", .token ".", .token "->"]
  | declared _ => [.token "<ident>"]
  | blockName _ => [.token "("]
  | argument .. => [.token "<ident>", .token ")"]
  | key .. => [.token "="]
  | value .. => [.token "[", .somethingElse, .token "<ident>"]
  | argumentEnd .. => [.token ",", .token ")"]
  | item .. => [.somethingElse, .token "]"]
  | itemEnd .. => [.token ",", .token "]"]
  | declarationEnd _ => [.token "<newline>", .endOfInput]
  | firstDot _ => [.token "<ident>"]
  | firstHandle _ => [.token "->"]
  | arrow _ => [.token "<ident>"]
  | laterName .. => [.token ".", .token "->", .token "<newline>", .endOfInput]
  | laterDot .. => [.token "<ident>"]
  | laterHandle .. => [.token "->", .token "<newline>", .endOfInput]

end Position

/-- The first place where a text stops being a sketch: the token that cannot follow, or none at the
end of the text. -/
structure GrammarFault where
  found : Option Lexeme
  position : Position
deriving DecidableEq, Inhabited

namespace GrammarFault

/-- The words for what was found and what may stand there. -/
def message (fault : GrammarFault) : String :=
  let found := match fault.found with
    | some lexeme => "'" ++ lexeme.token.render ++ "'"
    | none => "end of input"
  "found " ++ found ++ " expected " ++ Expectation.phrase fault.position.expectations

/-- The bytes of the token, or the empty range at the end of the text. -/
def span (fault : GrammarFault) (size : Nat) : Span :=
  match fault.found with
  | some lexeme => lexeme.span
  | none => ⟨size, size⟩

end GrammarFault

/-- The statements that tokens spell from a position on. -/
def statementsFrom : Position → List Lexeme → Except GrammarFault (List Statement)
  | p, [] =>
    match p.ending? with
    | some statements => .ok statements
    | none => .error ⟨none, p⟩
  | p, lexeme :: rest =>
    if lexeme.token = .newline then
      match p.ending? with
      | some statements => (statementsFrom .lineStart rest).map (statements ++ ·)
      | none => .error ⟨some lexeme, p⟩
    else
      match p.next? lexeme with
      | some q => statementsFrom q rest
      | none => .error ⟨some lexeme, p⟩

end ShapeFlow.Sketch
