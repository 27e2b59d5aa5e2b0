import ShapeFlow.Text.Blank

/-!
# Block types

The closed catalog of blocks that an editor can place, with their names, their categories and their
handles.

* `Block.ofName?`: a block by its name, its case and the blanks around it left aside; some blocks
  go by several names.
* `Block.inputs`, `Block.outputs`: the handles of a block in their order.
-/

namespace ShapeFlow

/-- A block type. -/
inductive Block where
  | input
  | output
  | linear
  | conv2D
  | lstm
  | attention
  | layerNorm
  | batchNorm
  | activation
  | dropout
  | flatten
  | embedding
  | softmax
  | add
  | concat
  | textInput
  | textEmbedding
  | positionalEncoding
  | positionalEmbedding
  /-- A note in the editor, which carries no tensors. -/
  | board
deriving DecidableEq, Repr, Inhabited

/-- A coarse grouping of blocks for presentation. -/
inductive Category where
  | io
  | layer
  | normalization
  | elementwise
  | merge
  | text
  | notes
deriving DecidableEq, Repr, Inhabited

/-- An input of a block. -/
structure InputHandle where
  name : String
  /-- Whether any number of edges may enter. -/
  merges : Bool
deriving DecidableEq, Repr, Inhabited

namespace Block

/-- The input that most blocks have. -/
def defaultInput : String := "in"

/-- The output that most blocks have. -/
def defaultOutput : String := "out"

/-- All blocks in the order of the catalog. -/
def all : List Block :=
  [input, output, linear, conv2D, lstm, attention, layerNorm, batchNorm, activation, dropout,
    flatten, embedding, softmax, add, concat, textInput, textEmbedding, positionalEncoding,
    positionalEmbedding, board]

/-- The name under which a block is stored. -/
def name : Block → String
  | input => "Input"
  | output => "Output"
  | linear => "Linear"
  | conv2D => "Conv2D"
  | lstm => "LSTM"
  | attention => "Attention"
  | layerNorm => "LayerNorm"
  | batchNorm => "BatchNorm"
  | activation => "Activation"
  | dropout => "Dropout"
  | flatten => "Flatten"
  | embedding => "Embedding"
  | softmax => "Softmax"
  | add => "Add"
  | concat => "Concat"
  | textInput => "TextInput"
  | textEmbedding => "TextEmbedding"
  | positionalEncoding => "PositionalEncoding"
  | positionalEmbedding => "PositionalEmbedding"
  | board => "Board"

/-- The activation functions. -/
def activations : List String := ["relu", "gelu", "sigmoid", "tanh", "leaky_relu", "silu"]

/-- The names of a block in lower case. -/
def spellings : Block → List String
  | input => ["input"]
  | output => ["output"]
  | linear => ["linear", "dense"]
  | conv2D => ["conv2d"]
  | lstm => ["lstm"]
  | attention => ["attention", "multiheadattention"]
  | layerNorm => ["layernorm", "layer_norm"]
  | batchNorm => ["batchnorm", "batch_norm", "batchnorm2d"]
  | activation => ["activation", "relu", "gelu", "sigmoid", "tanh"]
  | dropout => ["dropout"]
  | flatten => ["flatten"]
  | embedding => ["embedding"]
  | softmax => ["softmax"]
  | add => ["add"]
  | concat => ["concat"]
  | textInput => ["textinput", "text_input"]
  | textEmbedding => ["textembedding", "text_embedding"]
  | positionalEncoding => ["positionalencoding", "positional_encoding"]
  | positionalEmbedding => ["positionalembedding", "positional_embedding"]
  | board => ["board"]

/-- A name as it is compared: without blanks at its ends and in lower case. -/
def normalName (name : String) : String := Text.fold (Text.trim name)

/-- The block of a name. -/
def ofName? (name : String) : Option Block :=
  all.find? (fun block => block.spellings.contains (normalName name))

/-- The activation function that a name such as `relu` stands for beside its block. -/
def impliedActivation? (name : String) : Option String :=
  activations.find? (· == normalName name)

/-- The words for a name without a block. -/
def unknownMessage (name : String) : String := s!"unknown block type '{name}'"

/-- The group of a block. -/
def category : Block → Category
  | input | output => .io
  | linear | conv2D | lstm | attention | embedding | flatten => .layer
  | layerNorm | batchNorm => .normalization
  | activation | dropout | softmax => .elementwise
  | add | concat => .merge
  | textInput | textEmbedding | positionalEncoding | positionalEmbedding => .text
  | board => .notes

/-- The inputs of a block in their order. -/
def inputs : Block → List InputHandle
  | input | textInput | board => []
  | attention => [⟨"query", false⟩, ⟨"key", false⟩, ⟨"value", false⟩]
  | add | concat => [⟨defaultInput, true⟩]
  | _ => [⟨defaultInput, false⟩]

/-- The outputs of a block. -/
def outputs : Block → List String
  | output | board => []
  | _ => [defaultOutput]

/-- The input of a name. -/
def input? (block : Block) (handle : String) : Option InputHandle :=
  block.inputs.find? (·.name == handle)

/-- Whether a block has an output of a name. -/
def hasOutput (block : Block) (handle : String) : Bool := block.outputs.contains handle

/-- Whether shapes are computed for a block. -/
def carriesTensors (block : Block) : Bool := block != board

end Block

end ShapeFlow
