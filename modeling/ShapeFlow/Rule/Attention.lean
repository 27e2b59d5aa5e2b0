import ShapeFlow.Rule.Inputs

/-!
# Attention

* `Rule.attention`: query, key and value have the same trailing dimension.
-/

namespace ShapeFlow.Rule

/-- The inputs of attention in the order in which they are judged. -/
def attentionHandles : List String := ["query", "key", "value"]

/-- Judges connected inputs against the dimension fixed so far; without one, the first known
trailing dimension fixes it. -/
def agreeOn : (fixed : Option UInt64) → List (String × Shape) → Outcome Unit
  | _, [] => .ok ()
  | fixed, (handle, shape) :: rest => do
    match fixed, ← trailing handle shape with
    | some expected, .known actual =>
      if actual = expected then agreeOn fixed rest
      else .error (.atHandle handle (.embeddingDimMismatch expected actual))
    | none, .known actual => agreeOn (some actual) rest
    | fixed, .unknown => agreeOn fixed rest

/-- The connected inputs of attention with their first shapes. -/
def attentionInputs (inputs : Inputs) : List (String × Shape) :=
  attentionHandles.filterMap (fun handle => (inputs.first? handle).map (handle, ·))

/-- The shape of the first connected input, once the heads divide a configured dimension and all
inputs agree on it. -/
def attention (settings : Settings) (inputs : Inputs) : Outcome Shape := do
  let embedDim ← configured (settings.constraint "embed_dim")
  let heads ← configured (settings.word "num_heads")
  if let some dim := embedDim then
    if dim % max heads 1 ≠ 0 then
      let (dim, heads) := (dim.toNat, heads.toNat)
      throw (.ofError (.invalidParam "num_heads"
        s!"embed_dim {dim} is not divisible by {heads} heads"))
  let connected := attentionInputs inputs
  agreeOn embedDim connected
  return (connected.head?.map (·.2)).getD ⟨[]⟩

end ShapeFlow.Rule
