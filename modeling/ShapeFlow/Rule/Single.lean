import ShapeFlow.Rule.Inputs

/-!
# Rules for a single input

Layers, normalizations and embeddings, each a function of the parameters and of one shape.
-/

namespace ShapeFlow.Rule

/-- A linear layer replaces the trailing dimension. -/
def linear (settings : Settings) (x : Shape) : Outcome Shape := do
  let inFeatures ← configured (settings.word "in_features")
  let outFeatures ← configured (settings.word "out_features")
  let last ← trailing Block.defaultInput x
  expectSize "in_features" inFeatures last
  return x.withLast (.known outFeatures)

/-- A recurrent layer turns features into its hidden size, at every step or only at the last. -/
def lstm (settings : Settings) (x : Shape) : Outcome Shape := do
  let (steps, features) ← match x.dims with
    | [features] => Except.ok (none, features)
    | [steps, features] => .ok (some steps, features)
    | _ => .error (rankMismatch Block.defaultInput "1 ([features]) or 2 ([seq, features])" x)
  expectConstraint settings "input_size" features
  let hidden := Dim.known (← configured (settings.word "hidden_size"))
  match steps, ← configured (settings.flag "return_sequences") with
  | some steps, true => return ⟨[steps, hidden]⟩
  | _, _ => return ⟨[hidden]⟩

/-- Layer normalization looks at the trailing dimension. -/
def layerNorm (settings : Settings) (x : Shape) : Outcome Shape := do
  let last ← trailing Block.defaultInput x
  expectConstraint settings "normalized_shape" last
  return x

/-- Batch normalization looks at the leading dimension. -/
def batchNorm (settings : Settings) (x : Shape) : Outcome Shape := do
  match x.dims with
  | [] => throw (rankMismatch Block.defaultInput "at least 1" x)
  | channels :: _ =>
    expectConstraint settings "num_features" channels
    return x

/-- A softmax needs its axis. -/
def softmax (settings : Settings) (x : Shape) : Outcome Shape := do
  let axis ← configured (settings.signed "dim")
  let _ ← resolveAxis x axis
  return x

/-- Flattening leaves one dimension, unknown when the product is unknown or too large. -/
def flatten (x : Shape) : Shape := ⟨[x.product?.getD .unknown]⟩

/-- An embedding gives every step of a sequence a vector. -/
def embedding (settings : Settings) (x : Shape) : Outcome Shape := do
  let width ← configured (settings.word "embedding_dim")
  match x.dims with
  | [steps] => return ⟨[steps, .known width]⟩
  | _ => throw (rankMismatch Block.defaultInput "1 ([seq])" x)

/-- A positional encoding looks at the trailing dimension and at the steps before it. -/
def positionalEncoding (settings : Settings) (x : Shape) : Outcome Shape := do
  let last ← trailing Block.defaultInput x
  expectConstraint settings "d_model" last
  if let _ :: steps :: _ := x.dims.reverse then
    expectWithin (← configured (settings.word "max_len")) steps
  return x

/-- A positional embedding needs steps and features. -/
def positionalEmbedding (settings : Settings) (x : Shape) : Outcome Shape := do
  match x.dims with
  | [steps, features] =>
    expectConstraint settings "d_model" features
    expectWithin (← configured (settings.word "max_len")) steps
    return x
  | _ => throw (rankMismatch Block.defaultInput "2 ([seq, d_model])" x)

end ShapeFlow.Rule
