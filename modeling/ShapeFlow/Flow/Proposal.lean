import ShapeFlow.Flow.Recompute

/-!
# Proposed connections

A connection is judged before it is made, against the graph and the shapes computed last. The graph
is neither changed nor computed again. Checks are made in this order: both nodes exist, the handles
exist and the input is free unless it merges, the nodes differ, the rule of the target does not
refuse the shape. Without a shape at the source the connection is accepted for the time being.

* `Proposal.ofText`: a connection written as `source.handle=target.handle`.
* `Proposal.judge`: the judgement given the shape at the source.
* `Proposal.judgeAgainst`: the judgement given the last computation, other inputs included.
-/

namespace ShapeFlow

/-- A connection that a user is about to make. -/
structure Proposal where
  source : NodeId
  sourceHandle : String
  target : NodeId
  targetHandle : String
deriving DecidableEq, Repr, Inhabited

/-- The judgement on a proposal: accepted, or why not. -/
abbrev Judgement := Except ShapeError Unit

namespace Proposal

/-- The edge that a proposal becomes. -/
def edge (p : Proposal) (id : EdgeId) : Edge :=
  ⟨id, p.source, p.sourceHandle, p.target, p.targetHandle⟩

/-- Both ends of a proposal with their handles. -/
def render (p : Proposal) : String := s!"{p.source}.{p.sourceHandle} -> {p.target}.{p.targetHandle}"

/-- The parts of a text before and behind the first occurrence of a character. -/
def cutAt? (c : Char) : List Char → Option (List Char × List Char)
  | [] => none
  | d :: rest =>
    if d = c then some ([], rest) else (cutAt? c rest).map (fun parts => (d :: parts.1, parts.2))

/-- A node and a handle on one side of a proposal; blanks around names do not count, and an absent
handle is the default one. -/
def endpoint? (side : List Char) (default : String) : Option (String × String) :=
  let (node, handle) := (cutAt? '.' side).getD (side, default.toList)
  let (node, handle) := (Text.trimChars node, Text.trimChars handle)
  if node.isEmpty || handle.isEmpty then none else some (String.ofList node, String.ofList handle)

/-- The proposal that a text spells. -/
def ofText? (text : String) : Option Proposal := do
  let (left, right) ← cutAt? '=' text.toList
  let (source, sourceHandle) ← endpoint? (Text.trimChars left) Block.defaultOutput
  let (target, targetHandle) ← endpoint? (Text.trimChars right) Block.defaultInput
  return ⟨source, sourceHandle, target, targetHandle⟩

/-- The words for a text that spells no proposal. -/
def grammarMessage (text : String) : String :=
  s!"expected SOURCE[.HANDLE]=TARGET[.HANDLE], got '{text}'"

/-- A text that spells no proposal. -/
structure Misspelling where
  text : String
deriving DecidableEq, Repr, Inhabited

/-- The words for a misspelling. -/
def Misspelling.message (m : Misspelling) : String := grammarMessage m.text

/-- The proposal that a text spells, or the text as it is. -/
def ofText (text : String) : Except Misspelling Proposal :=
  match ofText? text with
  | some p => .ok p
  | none => .error ⟨text⟩

/-- The record of a proposal. -/
def toJson (p : Proposal) : Json :=
  .object
    [("source", .text p.source), ("sourceHandle", .text p.sourceHandle),
      ("target", .text p.target), ("targetHandle", .text p.targetHandle)]

/-- The parts of a proposal read so far. -/
structure Draft where
  source : Option String := none
  sourceHandle : Option String := none
  target : Option String := none
  targetHandle : Option String := none

/-- Takes the value of a field. -/
def take : Json.Decode.Taker Draft := fun draft key _ value => do
  let name ← Json.Decode.text value
  match key with
  | "source" => return { draft with source := some name }
  | "sourceHandle" => return { draft with sourceHandle := some name }
  | "target" => return { draft with target := some name }
  | _ => return { draft with targetHandle := some name }

/-- A proposal, all of whose parts have to be there. -/
def decode : Json.Decoder Proposal := fun room tree => do
  let draft ← Json.Decode.record ["source", "sourceHandle", "target", "targetHandle"]
    take {} room tree
  return ⟨← Json.Decode.required draft.source, ← Json.Decode.required draft.sourceHandle,
    ← Json.Decode.required draft.target, ← Json.Decode.required draft.targetHandle⟩

/-- The node of an id that has to exist. -/
def lookup (g : Graph) (id : NodeId) : Except ShapeError Node :=
  match g.node? id with
  | some node => .ok node
  | none => .error (.unknownNode id)

/-- Demands the output handle of a proposal. -/
def checkOutput (p : Proposal) (source : Node) : Judgement :=
  if source.block.hasOutput p.sourceHandle then .ok ()
  else
    .error (.handleUnavailable p.sourceHandle
      (source.block.name ++ " has no output handle '" ++ p.sourceHandle ++ "'"))

/-- Demands the input handle of a proposal and, unless it merges, that no active edge enters it. -/
def checkInput (g : Graph) (p : Proposal) (target : Node) : Judgement :=
  match target.block.input? p.targetHandle with
  | none =>
    .error (.handleUnavailable p.targetHandle
      (target.block.name ++ " has no input handle '" ++ p.targetHandle ++ "'"))
  | some handle =>
    if handle.merges then .ok ()
    else
      match g.activeEdges.find?
          (fun e => e.target == p.target && e.targetHandle == p.targetHandle) with
      | some occupant =>
        .error (.handleUnavailable p.targetHandle
          ("already connected from '" ++ occupant.source ++ "'"))
      | none => .ok ()

/-- The judgement given the shape at the source and the shapes at the target's inputs. -/
def judgeWith (g : Graph) (p : Proposal) (shape? : Option Shape) (peers : Inputs) : Judgement := do
  let source ← lookup g p.source
  let target ← lookup g p.target
  p.checkOutput source
  checkInput g p target
  if p.source = p.target then throw (.selfConnection p.source)
  match shape? with
  | none => return ()
  | some shape =>
    (target.block.checkCandidate target.params (peers.push p.targetHandle shape)).mapError
      (·.error)

/-- The judgement given the shape at the source alone. -/
def judge (g : Graph) (p : Proposal) (shape? : Option Shape) : Judgement :=
  judgeWith g p shape? Inputs.none

/-- The shapes that arrive at a node by the last computation, over edges that it did not ignore. -/
def peers (g : Graph) (last : Recomputation) (id : NodeId) : Inputs :=
  ⟨g.edges.filterMap (fun e =>
    if e.target = id ∧ !((last.edges.get? e.id).any Verdict.isIgnored) then
      (last.shape? e.source).map (e.targetHandle, ·)
    else none)⟩

/-- The judgement given the last computation. -/
def judgeAgainst (g : Graph) (last : Recomputation) (p : Proposal) : Judgement :=
  judgeWith g p (last.shape? p.source) (peers g last p.target)

end Proposal

namespace Judgement

/-- Whether the proposal is accepted. -/
def isAccepted : Judgement → Bool
  | .ok () => true
  | .error _ => false

/-- The fields of the record of a judgement. -/
def fields : Judgement → List (String × Json)
  | .ok () => [("valid", .bool true), ("error", .null)]
  | .error e => [("valid", .bool false), ("error", .text e.message), ("code", .text e.code.text)]

/-- The record of a judgement. -/
def toJson (judgement : Judgement) : Json := .object judgement.fields

/-- The line about a checked proposal. -/
def render (p : Proposal) : Judgement → String
  | .ok () => "connect " ++ p.render ++ ": valid"
  | .error e => "connect " ++ p.render ++ ": rejected " ++ e.code.text ++ " " ++ e.message

end Judgement

end ShapeFlow
