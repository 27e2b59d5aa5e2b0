import ShapeFlow.Rule.Inputs

/-!
# Datasets

* `datasetShape?`: the shape of one sample of a known dataset.
* `Rule.input`, `Rule.textInput`: blocks that bring shapes into a graph.
-/

namespace ShapeFlow

/-- The known datasets with the sizes of a sample. -/
def datasets : List (String × List UInt64) :=
  [("mnist", [1, 28, 28]), ("fashionmnist", [1, 28, 28]), ("cifar10", [3, 32, 32])]

/-- The name of a dataset as it is compared: in lower case, without spaces, `_` and `-`. -/
def datasetKey (name : String) : String :=
  Text.fold (String.ofList (name.toList.filter (fun c => c != '_' && c != '-' && c != ' ')))

/-- The shape of one sample of a dataset. -/
def datasetShape? (name : String) : Option Shape :=
  (datasets.lookup (datasetKey name)).map Shape.ofSizes

namespace Rule

/-- The sample shape of the configured dataset. -/
def input (settings : Settings) : Outcome Shape := do
  let dataset ← configured (settings.text "dataset")
  match datasetShape? dataset with
  | some shape => return shape
  | none => .error (.ofError (.unknownDataset dataset))

/-- A sequence of the configured length. -/
def textInput (settings : Settings) : Outcome Shape := do
  return ⟨[.known (← configured (settings.word "seq_len"))]⟩

end Rule

end ShapeFlow
