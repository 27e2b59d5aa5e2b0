import ShapeFlow.Rule.Inputs

/-!
# Convolution

* `Rule.convExtent`: how often a window fits into an extent.
* `Rule.conv2D`: the rule of a two-dimensional convolution.
-/

namespace ShapeFlow.Rule

/-- The number of positions of a window, `(n + 2 * padding - kernel) / stride + 1` with the quotient
rounded down; it is not positive when the window does not fit. -/
def windowCount (n kernel stride padding : UInt64) : Int :=
  ((n.toNat : Int) + 2 * padding.toNat - kernel.toNat) / (max stride 1).toNat + 1

/-- The extent of an axis behind a convolution. A count that is not positive is a failure, which
reports it cut to the range of a signed word. -/
def convExtent (axis : String) (extent : Dim) (kernel stride padding : UInt64) : Outcome Dim :=
  match extent with
  | .unknown => .ok .unknown
  | .known n =>
    let count := windowCount n kernel stride padding
    if count ≤ 0 then
      let reported := max count (-0x8000000000000000)
      .error (.atHandle Block.defaultInput (.invalidSpatialReduction axis reported))
    else .ok ((Dim.ofNat? count.toNat).getD .unknown)

/-- Channels, height and width behind a convolution; the height is judged before the width. -/
def conv2D (settings : Settings) (x : Shape) : Outcome Shape :=
  match x.dims with
  | [channels, height, width] => do
    expectConstraint settings "in_channels" channels
    let out ← configured (settings.word "out_channels")
    let (kernelH, kernelW) ← configured (settings.pair "kernel_size")
    let (strideH, strideW) ← configured (settings.pair "stride")
    let (padH, padW) ← configured (settings.pair "padding")
    let height ← convExtent "height" height kernelH strideH padH
    let width ← convExtent "width" width kernelW strideW padW
    return ⟨[.known out, height, width]⟩
  | _ => .error (rankMismatch Block.defaultInput "3 ([C, H, W])" x)

end ShapeFlow.Rule
