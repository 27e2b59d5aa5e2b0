import ShapeFlow.Json.Value

/-!
# Diagnostics

A diagnostic tells a user of a problem of a graph or of a sketch. Its code is stable: a code keeps
its meaning for ever, so that presentations can be keyed by it.

* `Diagnostic.render`: the message with its level and code, and a hint on a line of its own.
* `Diagnostic.toJson`: the record with absent parts left out.
-/

namespace ShapeFlow

/-- Identifies a placed block. -/
abbrev NodeId := String

/-- Identifies a connection. -/
abbrev EdgeId := String

/-- A stable diagnostic code. -/
structure Code where
  text : String
deriving DecidableEq, Repr, Inhabited

namespace Code

/-- A required input is not connected. -/
def missingInput : Code := ⟨"E0100"⟩

/-- A configured size and an input dimension differ. -/
def dimensionMismatch : Code := ⟨"E0101"⟩

/-- Merged inputs differ. -/
def shapeMismatch : Code := ⟨"E0102"⟩

/-- Concatenated inputs differ outside of their axis. -/
def axisMismatch : Code := ⟨"E0103"⟩

/-- Trailing dimensions of attention inputs differ. -/
def embeddingDimMismatch : Code := ⟨"E0104"⟩

/-- A convolution leaves nothing of an extent. -/
def invalidSpatialReduction : Code := ⟨"E0105"⟩

/-- An input has the wrong number of dimensions. -/
def rankMismatch : Code := ⟨"E0106"⟩

/-- An axis does not exist. -/
def axisOutOfRange : Code := ⟨"E0107"⟩

/-- A sequence is longer than its table of positions. -/
def sequenceTooLong : Code := ⟨"E0108"⟩

/-- A dataset is not known. -/
def unknownDataset : Code := ⟨"E0110"⟩

/-- A parameter does not fit its schema. -/
def invalidParam : Code := ⟨"E0111"⟩

/-- A node is inside or downstream of a cycle. -/
def cycleDetected : Code := ⟨"E0120"⟩

/-- A node inherits a failure. -/
def upstreamError : Code := ⟨"E0121"⟩

/-- A single input has several connections. -/
def handleConflict : Code := ⟨"E0122"⟩

/-- A handle of a proposed connection cannot be used. -/
def handleUnavailable : Code := ⟨"E0130"⟩

/-- A proposed connection joins a node to itself. -/
def selfConnection : Code := ⟨"E0131"⟩

/-- A node of a proposed connection does not exist. -/
def unknownNode : Code := ⟨"E0132"⟩

/-- An edge names a node that does not exist. -/
def danglingEdge : Code := ⟨"W0200"⟩

/-- An edge names a handle that its node does not have. -/
def unknownHandle : Code := ⟨"W0201"⟩

/-- An edge repeats a connection. -/
def duplicateEdge : Code := ⟨"W0202"⟩

/-- A node id is used again. -/
def duplicateNode : Code := ⟨"W0203"⟩

/-- A sketch is not well formed. -/
def sketchGrammar : Code := ⟨"E0300"⟩

/-- A sketch names an unknown block type. -/
def unknownBlockType : Code := ⟨"E0301"⟩

/-- A sketch connects a node that it does not declare. -/
def undeclaredNode : Code := ⟨"E0302"⟩

/-- A sketch declares a node again. -/
def redeclaredNode : Code := ⟨"E0303"⟩

end Code

/-- How grave a diagnostic is. -/
inductive Level where
  | error
  | warning
deriving DecidableEq, Repr, Inhabited

/-- The word for a level. -/
def Level.text : Level → String
  | error => "error"
  | warning => "warning"

/-- A message about a graph as a whole, or about one node or edge of it. -/
structure Diagnostic where
  level : Level
  message : String
  code : Option Code := none
  hint : Option String := none
  node : Option NodeId := none
  edge : Option EdgeId := none
deriving DecidableEq, Repr, Inhabited

namespace Diagnostic

/-- Whether the level is that of an error. -/
def isError (d : Diagnostic) : Bool := d.level == .error

/-- The level, the code in brackets, the message, and the hint on a line of its own. -/
def render (d : Diagnostic) : String :=
  d.level.text
    ++ (match d.code with
      | some code => "[" ++ code.text ++ "]"
      | none => "")
    ++ ": " ++ d.message
    ++ (match d.hint with
      | some hint => "\n  hint: " ++ hint
      | none => "")

/-- The record of a diagnostic; absent parts are left out. -/
def toJson (d : Diagnostic) : Json :=
  .object
    (Json.optionalField "code" (fun code => .text code.text) d.code
      ++ [("level", .text d.level.text), ("message", .text d.message)]
      ++ Json.optionalField "hint" .text d.hint
      ++ Json.optionalField "node" .text d.node
      ++ Json.optionalField "edge" .text d.edge)

end Diagnostic

end ShapeFlow
