import ShapeFlow.Table
import ShapeFlow.Shape.Basic
import ShapeFlow.Shape.Json
import ShapeFlow.Number.Double
import ShapeFlow.Number.Decimal
import ShapeFlow.Number.Shortest
import ShapeFlow.Number.Layout
import ShapeFlow.Json.Value
import ShapeFlow.Json.Writer
import ShapeFlow.Json.Numeral
import ShapeFlow.Json.Tree
import ShapeFlow.Text.CodeRange
import ShapeFlow.Text.Extender
import ShapeFlow.Text.Unassigned
import ShapeFlow.Text.Hidden
import ShapeFlow.Text.Quoted
import ShapeFlow.Text.Blank
import ShapeFlow.Text.Bytes
import ShapeFlow.Json.Decode
import ShapeFlow.Diagnostic
import ShapeFlow.Failure
import ShapeFlow.Param.Value
import ShapeFlow.Param.Schema
import ShapeFlow.Param.Settings
import ShapeFlow.Block.Basic
import ShapeFlow.Block.Schema
import ShapeFlow.Rule.Inputs
import ShapeFlow.Rule.Source
import ShapeFlow.Rule.Convolution
import ShapeFlow.Rule.Merge
import ShapeFlow.Rule.Attention
import ShapeFlow.Rule.Single
import ShapeFlow.Rule.Output
import ShapeFlow.Graph.Basic
import ShapeFlow.Graph.Document
import ShapeFlow.Sketch.Token
import ShapeFlow.Sketch.Statement
import ShapeFlow.Sketch.Combinator
import ShapeFlow.Sketch.Parser
import ShapeFlow.Flow.Active
import ShapeFlow.Flow.Order
import ShapeFlow.Flow.Result
import ShapeFlow.Flow.Evaluate
import ShapeFlow.Flow.Recompute
import ShapeFlow.Flow.Proposal
import ShapeFlow.Sketch.Lowering
import ShapeFlow.Load
import ShapeFlow.Digest.Sha256
import ShapeFlow.Report.Summary
import ShapeFlow.Report.Record
import ShapeFlow.Report.Dot
import ShapeFlow.Command
import ShapeFlow.Main
import ShapeFlow.Proofs.Reach
import ShapeFlow.Proofs.Sweep
import ShapeFlow.Proofs.Active
import ShapeFlow.Proofs.Evaluate
import ShapeFlow.Proofs.Account
import ShapeFlow.Proofs.Equations
import ShapeFlow.Proofs.Countdown
import ShapeFlow.Proofs.Locality
import ShapeFlow.Proofs.Cycle
import ShapeFlow.Proofs.Extension
import ShapeFlow.Proofs.Judgement
import ShapeFlow.Proofs.Proposal
import ShapeFlow.Proofs.Upstream
import ShapeFlow.Proofs.Blame
import ShapeFlow.Proofs.Admits
import ShapeFlow.Proofs.Merge
import ShapeFlow.Proofs.Monotone
import ShapeFlow.Proofs.Filling
import ShapeFlow.Proofs.Exact
import ShapeFlow.Proofs.Permutation
import ShapeFlow.Proofs.Edit
import ShapeFlow.Proofs.Core
import ShapeFlow.Proofs.WellFormed
import ShapeFlow.Proofs.Renaming
import ShapeFlow.Proofs.Anonymous
import ShapeFlow.Proofs.Position
import ShapeFlow.Proofs.Grammar
import ShapeFlow.Proofs.Combinator
import ShapeFlow.Proofs.Prediction
import ShapeFlow.Proofs.Parse
import ShapeFlow.Proofs.Canonical
import ShapeFlow.Proofs.Decoding
import ShapeFlow.Proofs.Reload
import ShapeFlow.Proofs.Viable
import ShapeFlow.Proofs.Tiling
import ShapeFlow.Proofs.Loading
import ShapeFlow.Proofs.Commitment
import ShapeFlow.Proofs.SharedId
import ShapeFlow.Proofs.Nesting
import ShapeFlow.Proofs.Persistence
import ShapeFlow.Proofs.Standing
import ShapeFlow.Proofs.DefaultId
import ShapeFlow.Proofs.Reading
import ShapeFlow.Proofs.Precedence
import ShapeFlow.Proofs.Mismatch
import ShapeFlow.Proofs.Window
import ShapeFlow.Proofs.Classification
import ShapeFlow.Proofs.Flattening
import ShapeFlow.Proofs.Attention
import ShapeFlow.Proofs.Defaults
import ShapeFlow.Proofs.Rounding
import ShapeFlow.Proofs.Stored
import ShapeFlow.Proofs.Validity
import ShapeFlow.Proofs.Notation
import ShapeFlow.Proofs.Rearrangement
import ShapeFlow.Proofs.Place
import ShapeFlow.Proofs.Unplaced
import ShapeFlow.Proofs.Drawing
import ShapeFlow.Proofs.ShapeText
import ShapeFlow.Proofs.Spelling
