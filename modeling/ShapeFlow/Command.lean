import ShapeFlow.Load
import ShapeFlow.Report.Dot
import ShapeFlow.Report.Record

/-!
# The command line

* `Command.plan`: what a list of arguments asks for.
* `Command.check`: the output and the exit code for the content of a file.
-/

namespace ShapeFlow.Command

/-- What is printed about a graph. -/
inductive Emission where
  | summary
  | json
  | dot
  | fingerprint
deriving DecidableEq, Repr, Inhabited

/-- An emission by its name on the command line. -/
def Emission.ofName? : String → Option Emission
  | "summary" => some summary
  | "json" => some json
  | "dot" => some dot
  | "fingerprint" => some fingerprint
  | _ => none

/-- The word for an emission in the log. -/
def Emission.logName : Emission → String
  | summary => "Summary"
  | json => "Json"
  | dot => "Dot"
  | fingerprint => "Fingerprint"

/-- A format by its name on the command line. -/
def formatOfName? : String → Option Format
  | "json" => some .json
  | "sketch" => some .sketch
  | _ => none

/-- The graph file and the options. -/
structure Invocation where
  path : String
  format : Option Format
  emission : Emission
  proposals : List Proposal
  verbose : Bool
deriving DecidableEq, Repr, Inhabited

/-- What a run leaves behind. -/
structure Output where
  stdout : String
  stderr : String
  exit : Nat
deriving DecidableEq, Repr, Inhabited

/-- What a list of arguments asks for: to stop at once, or to check a file. -/
inductive Plan where
  | stop (output : Output)
  | check (invocation : Invocation)
deriving DecidableEq, Repr, Inhabited

/-- The arguments read so far. -/
structure Draft where
  path : Option String := none
  format : Option Format := none
  emission : Option Emission := none
  proposals : List Proposal := []
  verbose : Bool := false

/-- The name and version. -/
def versionText : String := "nsc 0.3.0\n"

/-- How the program is called. -/
def usageText : String :=
  "Usage: nsc [--format json|sketch] [--emit summary|json|dot|fingerprint]\n"
    ++ "           [--connect SOURCE[.HANDLE]=TARGET[.HANDLE]]... [--verbose] FILE\n"

/-- The end of a run whose arguments are refused. -/
def refusal (reason : String) : Output := ⟨"", "error: " ++ reason ++ "\n\n" ++ usageText, 2⟩

/-- Why reading the arguments stops before their end. -/
abbrev Reading (α : Type) := Except Output α

/-- Refuses the arguments. -/
def refuse {α : Type} (reason : String) : Reading α := .error (refusal reason)

/-- Takes the graph file, of which there is one. -/
def takePath (draft : Draft) (path : String) : Reading Draft :=
  if path.isEmpty then refuse "a file name must not be empty"
  else if draft.path.isSome then refuse ("unexpected argument '" ++ path ++ "'")
  else .ok { draft with path := some path }

/-- The options that have a value. -/
def valued : List String := ["format", "emit", "connect"]

/-- Takes an option with its value; only `connect` may be repeated. -/
def takeValue (draft : Draft) (name value : String) : Reading Draft :=
  match name with
  | "format" =>
    if draft.format.isSome then refuse "the option '--format' cannot be used again"
    else match formatOfName? value with
      | some format => .ok { draft with format := some format }
      | none => refuse ("invalid value '" ++ value ++ "' for '--format'")
  | "emit" =>
    if draft.emission.isSome then refuse "the option '--emit' cannot be used again"
    else match Emission.ofName? value with
      | some emission => .ok { draft with emission := some emission }
      | none => refuse ("invalid value '" ++ value ++ "' for '--emit'")
  | "connect" =>
    match Proposal.ofText value with
    | .ok proposal => .ok { draft with proposals := draft.proposals ++ [proposal] }
    | .error misspelling => refuse misspelling.message
  | _ => refuse ("unexpected argument '--" ++ name ++ "'")

/-- Takes an option without a value. -/
def takeFlag (draft : Draft) (name : String) : Reading Draft :=
  match name with
  | "verbose" =>
    if draft.verbose then refuse "the option '--verbose' cannot be used again"
    else .ok { draft with verbose := true }
  | "version" => .error ⟨versionText, "", 0⟩
  | "help" => .error ⟨usageText, "", 0⟩
  | _ => refuse ("unexpected argument '--" ++ name ++ "'")

/-- Takes letters behind a single hyphen, the first of which decides. -/
def takeLetters (draft : Draft) : List Char → Reading Draft
  | 'V' :: _ => takeFlag draft "version"
  | 'h' :: _ => takeFlag draft "help"
  | letters => refuse ("unexpected argument '-" ++ String.ofList letters ++ "'")

/-- Whether an argument is an option and not the value of the one before. A single hyphen is a
value. -/
def isOption (argument : String) : Bool :=
  match argument.toList with
  | '-' :: _ :: _ => true
  | _ => false

/-- Takes the arguments behind `--`, all of which name files. -/
def takePaths : Draft → List String → Reading Draft
  | draft, [] => .ok draft
  | draft, path :: rest => do takePaths (← takePath draft path) rest

/-- Takes arguments in their order. -/
def takeAll : Draft → List String → Reading Draft
  | draft, [] => .ok draft
  | draft, argument :: rest =>
    match argument.toList with
    | ['-', '-'] => takePaths draft rest
    | '-' :: '-' :: body =>
      match Proposal.cutAt? '=' body with
      | some (name, value) =>
        let name := String.ofList name
        if valued.contains name then do
          takeAll (← takeValue draft name (String.ofList value)) rest
        else refuse ("unexpected argument '" ++ argument ++ "'")
      | none =>
        let name := String.ofList body
        if valued.contains name then
          match rest with
          | value :: rest =>
            if isOption value then refuse ("a value is required for '" ++ argument ++ "'")
            else do takeAll (← takeValue draft name value) rest
          | [] => refuse ("a value is required for '" ++ argument ++ "'")
        else do takeAll (← takeFlag draft name) rest
    | '-' :: letter :: letters => do takeAll (← takeLetters draft (letter :: letters)) rest
    | _ => do takeAll (← takePath draft argument) rest

/-- What a list of arguments asks for. -/
def plan (arguments : List String) : Plan :=
  match takeAll {} arguments with
  | .error output => .stop output
  | .ok draft =>
    match draft.path with
    | none => .stop (refusal "a graph file is required")
    | some path =>
      .check ⟨path, draft.format, draft.emission.getD .summary, draft.proposals, draft.verbose⟩

/-- The graph of a file, given its content or the reason why it cannot be read. -/
def loadContent (inv : Invocation) (content : Except String String) : Except LoadError Graph :=
  match content with
  | .error reason => .error (.unreadable inv.path reason)
  | .ok text => load text (inv.format.getD (Format.ofPath inv.path)) inv.path

/-- Lines of the log, if it is asked for. -/
def log (inv : Invocation) (lines : List String) : String :=
  if inv.verbose then String.join (lines.map (fun text => Report.line ("nsc: " ++ text))) else ""

/-- What is printed about a computation and the proposals checked against it. -/
def emit (emission : Emission) (g : Graph) (r : Recomputation)
    (checked : List (Proposal × Judgement)) : String :=
  match emission with
  | .summary =>
    Report.summary g r
      ++ String.join (checked.map (fun (p, judgement) => Report.line (judgement.render p)))
  | .json => Report.line (Report.record r checked)
  | .dot => Dot.draw g r
  | .fingerprint => Report.line (Report.fingerprint r)

/-- The exit code: 0 if no node is blocked and no proposal is rejected. -/
def exitCode (blocked rejected : Nat) : Nat := if blocked = 0 ∧ rejected = 0 then 0 else 1

/-- The output for the content of a file, or for the reason why it cannot be read. -/
def check (inv : Invocation) (content : Except String String) : Output :=
  let opening := log inv ["source = " ++ inv.path, "emit   = " ++ inv.emission.logName]
  match loadContent inv content with
  | .error e =>
    ⟨"", opening ++ Report.line ("nsc: error: " ++ e.message)
      ++ String.join (e.details.map Report.line), 2⟩
  | .ok g =>
    let r := g.recompute
    let checked := inv.proposals.map (fun p => (p, p.judgeAgainst g r))
    let blocked := r.blocked.length
    let rejected := checked.countP (fun entry => !entry.2.isAccepted)
    let nodes := g.nodes.size
    let edges := g.edges.length
    ⟨emit inv.emission g r checked,
      opening ++ log inv [s!"loaded {nodes} nodes, {edges} edges",
        s!"{blocked} blocked, {rejected} rejected"],
      exitCode blocked rejected⟩

end ShapeFlow.Command
