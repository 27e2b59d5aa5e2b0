import ShapeFlow.Rule.Attention
import ShapeFlow.Rule.Convolution
import ShapeFlow.Rule.Merge
import ShapeFlow.Rule.Single
import ShapeFlow.Rule.Source

/-!
# Output shapes

* `Block.rule`: the rule of every block.
* `Block.outputShape`: the output shape of a block whose parameters fit their schema and whose
  inputs are all connected, judged in this order.
* `Block.checkCandidate`: the rule run on some of the inputs only, as when one new connection is
  considered.
-/

namespace ShapeFlow.Block

/-- The rule of a block. A board is never asked and has the empty shape. -/
def rule (block : Block) (params : Params) (inputs : Inputs) : Outcome Shape :=
  let settings := block.settings params
  match block with
  | input => Rule.input settings
  | textInput => Rule.textInput settings
  | linear => Rule.single inputs >>= Rule.linear settings
  | conv2D => Rule.single inputs >>= Rule.conv2D settings
  | lstm => Rule.single inputs >>= Rule.lstm settings
  | attention => Rule.attention settings inputs
  | layerNorm => Rule.single inputs >>= Rule.layerNorm settings
  | batchNorm => Rule.single inputs >>= Rule.batchNorm settings
  | softmax => Rule.single inputs >>= Rule.softmax settings
  | activation | dropout | output => Rule.single inputs
  | flatten => (Rule.single inputs).map Rule.flatten
  | embedding | textEmbedding => Rule.single inputs >>= Rule.embedding settings
  | add => Rule.add inputs
  | concat => Rule.concat settings inputs
  | positionalEncoding => Rule.single inputs >>= Rule.positionalEncoding settings
  | positionalEmbedding => Rule.single inputs >>= Rule.positionalEmbedding settings
  | board => .ok ⟨[]⟩

/-- Demands a shape at every handle, in their order. -/
def requireConnected (inputs : Inputs) : List InputHandle → Outcome Unit
  | [] => .ok ()
  | handle :: rest =>
    if inputs.isConnected handle.name then requireConnected inputs rest
    else .error (Rule.missing handle.name)

/-- The output shape of a block. -/
def outputShape (block : Block) (params : Params) (inputs : Inputs) : Outcome Shape := do
  Rule.configured (Param.checkSchema block.schema params)
  requireConnected inputs block.inputs
  block.rule params inputs

/-- Whether a failure speaks against a shape at hand, and not against the parameters or against an
input that is still open. -/
def blamesInput (failure : Failure) : Bool :=
  failure.handle.isSome &&
    match failure.error with
    | .missingInput _ => false
    | _ => true

/-- Runs the rule on the inputs at hand. Open inputs and the block's own parameter problems are not
held against a candidate. -/
def checkCandidate (block : Block) (params : Params) (inputs : Inputs) : Outcome Unit :=
  match Param.checkSchema block.schema params with
  | .error _ => .ok ()
  | .ok () =>
    match block.rule params inputs with
    | .error failure => if blamesInput failure then .error failure else .ok ()
    | .ok _ => .ok ()

end ShapeFlow.Block
