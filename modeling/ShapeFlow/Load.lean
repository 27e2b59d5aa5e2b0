import ShapeFlow.Graph.Document
import ShapeFlow.Sketch.Lowering

/-!
# Loading graphs

* `Format.ofPath`: the format of a file by the extension of its name.
* `load`: the graph of a text in a format.
* `LoadError.details`: one line for every error of a sketch.
-/

namespace ShapeFlow

/-- How a graph is written down. -/
inductive Format where
  | json
  | sketch
deriving DecidableEq, Repr, Inhabited

namespace Format

/-- The parts of a path between slashes; a part that is a single point stays where it is. -/
def pathParts (path : String) : List (List Char) :=
  (path.toList.splitOn '/').filter (fun part => !part.isEmpty && part != ['.'])

/-- The extension of a file name: what follows its last point, unless the point comes first. -/
def extension? (name : List Char) : Option (List Char) :=
  let extension := (name.reverse.takeWhile (· != '.')).reverse
  let stem := name.take (name.length - extension.length - 1)
  if name = ['.', '.'] ∨ stem.isEmpty then none else some extension

/-- A file whose name ends in `.json`, in any case, holds a document; any other holds a sketch. -/
def ofPath (path : String) : Format :=
  match (pathParts path).getLast?.bind extension? with
  | some extension =>
    if Text.sameFolded (String.ofList extension) "json" then json else sketch
  | none => sketch

end Format

/-- Why a file has no graph. -/
inductive LoadError where
  | unreadable (path : String) (reason : String)
  | document (path : String) (error : DocumentError)
  | sketch (path : String) (source : String) (findings : List Sketch.Finding)

namespace LoadError

/-- The words for an error. -/
def message : LoadError → String
  | unreadable path reason => s!"cannot read {path}: {reason}"
  | document path error => s!"{path}: " ++ error.message
  | sketch path _ findings => s!"{path}: sketch has {findings.length} error(s)"

/-- A line for every error of a sketch, with its position. -/
def details : LoadError → List String
  | sketch path source findings => findings.map (·.render source path)
  | _ => []

end LoadError

/-- The graph of a text. The path only stands in messages. -/
def load (text : String) (format : Format) (path : String) : Except LoadError Graph :=
  match format with
  | .json => (Graph.ofText text).mapError (.document path)
  | .sketch => (Sketch.load text).mapError (.sketch path text)

end ShapeFlow
