import ShapeFlow.Sketch.Token

/-!
# Statements of sketches

A sketch declares nodes, `name = Block(key = value, ...)`, and connects them by chains,
`a.handle -> b -> c.handle`, one statement to a line. Every part knows the bytes that it covers.
-/

namespace ShapeFlow.Sketch

/-- A name at its place. -/
structure Ident where
  name : String
  span : Span
deriving DecidableEq, Repr, Inhabited

/-- The value of an argument; a bare name is a text. -/
inductive Value where
  | number (x : Double) (span : Span)
  | flag (b : Bool) (span : Span)
  | text (s : String) (span : Span)
  | numbers (xs : List Double) (span : Span)
deriving DecidableEq, Inhabited

/-- The bytes of a value. -/
def Value.span : Value → Span
  | number _ span => span
  | flag _ span => span
  | text _ span => span
  | numbers _ span => span

/-- A named argument. -/
structure Argument where
  key : Ident
  value : Value
deriving DecidableEq, Inhabited

/-- The declaration of a node. -/
structure Declaration where
  name : Ident
  block : Ident
  arguments : List Argument
  span : Span
deriving DecidableEq, Inhabited

/-- A node in a chain, with a handle if one is named. -/
structure Endpoint where
  node : Ident
  handle : Option Ident
  span : Span
deriving DecidableEq, Repr, Inhabited

/-- Nodes connected one after the other. -/
structure Chain where
  endpoints : List Endpoint
  span : Span
deriving DecidableEq, Repr, Inhabited

/-- A line of a sketch. -/
inductive Statement where
  | node (d : Declaration)
  | chain (c : Chain)
deriving DecidableEq, Inhabited

/-- The bytes of a statement. -/
def Statement.span : Statement → Span
  | node d => d.span
  | chain c => c.span

end ShapeFlow.Sketch

namespace ShapeFlow

/-- A sketch: its statements in order, and the bytes from its first to its last token. -/
structure Sketch where
  statements : List Sketch.Statement
  span : Sketch.Span
deriving DecidableEq, Inhabited

end ShapeFlow
