import ShapeFlow.Block.Basic
import ShapeFlow.Param.Settings

/-!
# Parameters of block types

* `Block.schema`: the parameters of a block in their order.
* `Block.defaults`: all parameters of a block at their defaults.
-/

namespace ShapeFlow.Block

open Param

/-- A double written as a decimal fraction. -/
def fraction (digits places : Nat) : Double := Decimal.nearest ⟨false, digits, -places⟩

/-- The loss functions. -/
def losses : List String := ["CrossEntropyLoss", "MSELoss", "BCEWithLogitsLoss"]

/-- The parameters of a block. A size of 0 leaves the size open where the least value is 0. -/
def schema : Block → List Spec
  | input => [.text "dataset" "MNIST"]
  | output => [.choice "loss_fn" losses "CrossEntropyLoss"]
  | linear => [.whole "in_features" 1 784, .whole "out_features" 1 128]
  | conv2D =>
    [.whole "in_channels" 0 0, .whole "out_channels" 1 32, .extent "kernel_size" 1 3,
      .extent "stride" 1 1, .extent "padding" 0 0]
  | lstm =>
    [.whole "input_size" 0 0, .whole "hidden_size" 1 128, .wholeWithin "num_layers" 1 8 1,
      .flag "return_sequences" true]
  | attention => [.whole "embed_dim" 0 0, .whole "num_heads" 1 1]
  | layerNorm => [.whole "normalized_shape" 0 0, .real "eps" 0 1 (fraction 1 5)]
  | batchNorm => [.whole "num_features" 0 0, .real "momentum" 0 1 (fraction 1 1)]
  | activation => [.choice "activation" activations "relu"]
  | dropout => [.real "p" 0 1 (fraction 5 1)]
  | embedding => [.whole "num_embeddings" 1 10000, .whole "embedding_dim" 1 128]
  | softmax => [.wholeWithin "dim" (-8) 8 (-1)]
  | concat => [.wholeWithin "axis" (-8) 8 0]
  | textInput => [.whole "seq_len" 1 128, .whole "vocab_size" 1 10000]
  | textEmbedding => [.whole "vocab_size" 1 10000, .whole "embedding_dim" 1 128]
  | positionalEncoding => [.whole "d_model" 0 0, .whole "max_len" 1 5000]
  | positionalEmbedding => [.whole "max_len" 1 512, .whole "d_model" 0 0]
  | flatten | add | board => []

/-- All parameters of a block at their defaults. -/
def defaults (block : Block) : Params :=
  Table.ofList (block.schema.map (fun spec => (spec.key, spec.default)))

/-- Parameters seen through the schema of a block. -/
def settings (block : Block) (params : Params) : Settings := ⟨block.schema, params⟩

end ShapeFlow.Block
