import ShapeFlow.Command
import ShapeFlow.Proofs.SharedId

/-!
# One notion of validity

A computation is called valid for its nodes and edges, the summary counts results, and the exit code
counts blocked nodes and rejected proposals. All three say the same.

* `Recomputation.blocked_eq_nil_iff`: no node is blocked iff every node is resolved.
* `Graph.exists_blockage_of_invalid`: an edge is invalid only if its target is blocked.
* `Command.exit_of_load`: **a run ends with 0 or 1, by what is blocked and what is rejected.**
* `Graph.validity_is_one`: **a graph is valid iff nothing is blocked**, by all three accounts.
-/

namespace ShapeFlow

theorem Table.mem_values_iff {α : Type} {t : Table α} {value : α} :
    value ∈ t.values ↔ ∃ key, t.get? key = some value := by
  rw [values, List.mem_map]
  constructor
  · rintro ⟨⟨key, held⟩, hentry, rfl⟩
    exact ⟨key, (get?_eq_some_iff t key held).2 hentry⟩
  · rintro ⟨key, h⟩
    exact ⟨(key, value), (get?_eq_some_iff t key value).1 h, rfl⟩

/-! ## Blocked nodes and resolved ones -/

namespace Recomputation

variable {r : Recomputation}

theorem mem_blocked_iff {id : NodeId} {blockage : Blockage} :
    (id, blockage) ∈ r.blocked ↔ r.blockage? id = some blockage := by
  rw [blocked, List.mem_filterMap, blockage?, Option.bind_eq_some_iff]
  constructor
  · rintro ⟨⟨key, result⟩, hentry, h⟩
    obtain ⟨other, hother, heq⟩ := Option.map_eq_some_iff.1 h
    obtain ⟨rfl, rfl⟩ := Prod.mk.inj heq
    exact ⟨result, (Table.get?_eq_some_iff _ _ _).2 hentry, hother⟩
  · rintro ⟨result, hresult, hblockage⟩
    refine ⟨(id, result), (Table.get?_eq_some_iff _ _ _).1 hresult, ?_⟩
    exact Option.map_eq_some_iff.2 ⟨blockage, hblockage, rfl⟩

theorem length_blocked : r.blocked.length = r.nodes.values.countP (!·.isResolved) := by
  rw [blocked, List.length_filterMap_eq_countP, Table.values, List.countP_map]
  refine List.countP_congr fun entry _ => ?_
  obtain ⟨id, result⟩ := entry
  cases result <;> simp [Result.blockage?, Result.isResolved]

/-- **No node is blocked iff every node is resolved.** -/
theorem blocked_eq_nil_iff : r.blocked = [] ↔ r.nodes.values.all Result.isResolved = true := by
  rw [← List.length_eq_zero_iff, length_blocked, List.countP_eq_zero, List.all_eq_true]
  simp

/-- Every result is counted once. -/
theorem resolved_add_blocked :
    r.nodes.values.countP Result.isResolved + r.blocked.length = r.nodes.size := by
  have hsplit := r.nodes.values.length_eq_countP_add_countP Result.isResolved
  rw [length_blocked, Table.size, ← List.length_map, ← Table.values, hsplit]
  simp

end Recomputation

namespace Graph

variable {g : Graph} {id : EdgeId} {code : Code} {message : String}

/-- **An edge is invalid only if its target is blocked**, by a failure that is held against the id.
The edge of an id is the first one, whose verdict stands. -/
theorem exists_blockage_of_invalid
    (h : g.recompute.edges.get? id = some (.invalid code message)) :
    ∃ e blockage, g.FirstActive id e ∧ g.recompute.blockage? e.target = some blockage ∧
      id ∈ blockage.edges ∧ blockage.error.code = code ∧ blockage.error.message = message := by
  obtain ⟨e, hfirst, hverdict⟩ := get?_eq_invalid_iff.1 h
  obtain ⟨-, blockage, hblockage, hid, hcode, hmessage⟩ :=
    activeVerdict_eq_invalid_iff.1 hverdict
  exact ⟨e, blockage, hfirst, hblockage, hfirst.id_eq ▸ hid, hcode, hmessage⟩

/-- Where nothing is blocked no edge is invalid. -/
theorem not_isInvalid_of_blocked (h : g.recompute.blocked = []) :
    g.recompute.edges.values.any Verdict.isInvalid = false := by
  rw [List.any_eq_false]
  intro verdict hverdict hinvalid
  obtain ⟨id, hid⟩ := Table.mem_values_iff.1 hverdict
  cases verdict with
  | invalid code message =>
    obtain ⟨e, blockage, -, hblockage, -⟩ := exists_blockage_of_invalid hid
    have hlisted : (e.target, blockage) ∈ g.recompute.blocked :=
      Recomputation.mem_blocked_iff.2 hblockage
    rw [h] at hlisted
    cases hlisted
  | ok | inactive | ignored => cases hinvalid

/-- **A computation is valid iff no node is blocked.** -/
theorem isValid_iff_blocked : g.recompute.isValid = true ↔ g.recompute.blocked = [] := by
  rw [Recomputation.isValid, Bool.and_eq_true, ← Recomputation.blocked_eq_nil_iff]
  constructor
  · exact And.left
  · intro h
    rw [not_isInvalid_of_blocked h]
    exact ⟨h, rfl⟩

/-- The nodes that have a result are all but the notes. -/
theorem size_nodes : g.recompute.nodes.size = g.nodes.values.countP (·.block != .board) := by
  have hsize : g.recompute.nodes.size = (g.tensorNodes.map (·.1)).length := by
    rw [← g.solves_recompute.names, Table.names, List.length_map, Table.size]
  rw [hsize, List.length_map, tensorNodes, ← List.countP_eq_length_filter, Table.values,
    List.countP_map]
  rfl

end Graph

/-! ## The summary -/

namespace Report

variable {g : Graph} {r : Recomputation}

/-- The last line of a summary, for the counts of resolved nodes, blocked nodes and warnings. -/
def totals (resolved blocked warnings : Nat) : String :=
  s!"{resolved} resolved, {blocked} blocked, {warnings} warning(s)"

/-- **The summary ends with its totals** on a line of their own. -/
theorem summary_totals (g : Graph) (r : Recomputation) :
    ∃ front, summary g r = front ++ "\n" ++ line
      (totals (r.nodes.values.countP Result.isResolved) r.blocked.length r.warnings.length) := by
  have hresolved : r.nodes.size - r.blocked.length = r.nodes.values.countP Result.isResolved := by
    have hcount := r.resolved_add_blocked
    omega
  have hline : line "" = "\n" := rfl
  exact ⟨_, by rw [summary, countLine, hresolved, hline, totals]⟩

end Report

/-! ## The exit code -/

namespace Command

variable {inv : Invocation} {content : Except String String} {g : Graph}

/-- The exit code counts what is blocked and what is rejected. -/
theorem exit_eq (hload : loadContent inv content = .ok g) :
    (check inv content).exit = exitCode g.recompute.blocked.length
      ((inv.proposals.map (fun p => (p, p.judgeAgainst g g.recompute))).countP
        (fun entry => !entry.2.isAccepted)) := by
  rw [check, hload]

theorem exitCode_eq_zero_iff {blocked rejected : Nat} :
    exitCode blocked rejected = 0 ↔ blocked = 0 ∧ rejected = 0 := by
  unfold exitCode
  split <;> simp_all

theorem exitCode_eq_one_iff {blocked rejected : Nat} :
    exitCode blocked rejected = 1 ↔ ¬ (blocked = 0 ∧ rejected = 0) := by
  unfold exitCode
  split <;> simp_all

/-- Nothing is blocked or rejected iff the graph is valid and every proposal is accepted. -/
theorem nothing_counted_iff :
    (g.recompute.blocked.length = 0 ∧
      (inv.proposals.map (fun p => (p, p.judgeAgainst g g.recompute))).countP
        (fun entry => !entry.2.isAccepted) = 0) ↔
    g.recompute.isValid = true ∧
      ∀ p ∈ inv.proposals, (p.judgeAgainst g g.recompute).isAccepted = true := by
  rw [List.length_eq_zero_iff, Graph.isValid_iff_blocked, List.countP_eq_zero, List.forall_mem_map]
  simp

/-- **A run ends with 0 or 1**: with 0 iff the graph is valid and every proposal is accepted. -/
theorem exit_of_load (hload : loadContent inv content = .ok g) :
    ((check inv content).exit = 0 ↔ g.recompute.isValid = true ∧
      ∀ p ∈ inv.proposals, (p.judgeAgainst g g.recompute).isAccepted = true) ∧
    ((check inv content).exit = 1 ↔ ¬ (g.recompute.isValid = true ∧
      ∀ p ∈ inv.proposals, (p.judgeAgainst g g.recompute).isAccepted = true)) := by
  rw [exit_eq hload, exitCode_eq_zero_iff, exitCode_eq_one_iff, nothing_counted_iff]
  exact ⟨Iff.rfl, Iff.rfl⟩

end Command

/-- **There is one notion of validity.** A computation is valid iff no node is blocked: an id is
invalid only for what blocks the target of its first edge. The summary ends with the numbers of
resolved and of blocked nodes, which together are all nodes but the notes. A run on the graph ends
with 0 iff the computation is valid and every proposal is accepted, and with 1 otherwise. -/
theorem Graph.validity_is_one (g : Graph) :
    (g.recompute.isValid = true ↔ g.recompute.blocked = []) ∧
    (∀ id code message, g.recompute.edges.get? id = some (.invalid code message) →
      ∃ e blockage, g.FirstActive id e ∧ g.recompute.blockage? e.target = some blockage ∧
        id ∈ blockage.edges ∧ blockage.error.code = code ∧ blockage.error.message = message) ∧
    (∃ front resolved blocked, Report.summary g g.recompute = front ++ "\n" ++
        Report.line (Report.totals resolved blocked g.recompute.warnings.length) ∧
      resolved = g.recompute.nodes.values.countP Result.isResolved ∧
      blocked = g.recompute.blocked.length ∧
      resolved + blocked = g.nodes.values.countP (·.block != .board)) ∧
    ∀ inv content, Command.loadContent inv content = .ok g →
      ((Command.check inv content).exit = 0 ↔ g.recompute.isValid = true ∧
        ∀ p ∈ inv.proposals, (p.judgeAgainst g g.recompute).isAccepted = true) ∧
      ((Command.check inv content).exit = 1 ↔ ¬ (g.recompute.isValid = true ∧
        ∀ p ∈ inv.proposals, (p.judgeAgainst g g.recompute).isAccepted = true)) := by
  refine ⟨isValid_iff_blocked, fun _ _ _ => exists_blockage_of_invalid, ?_, ?_⟩
  · obtain ⟨front, hfront⟩ := Report.summary_totals g g.recompute
    exact ⟨front, _, _, hfront, rfl, rfl, g.recompute.resolved_add_blocked.trans size_nodes⟩
  · intro inv content hload
    exact Command.exit_of_load hload

/-- An image that enters a layer for other sizes, and a note. One id stands for two edges. -/
def mismatchText : String :=
  "\x7b\"nodes\": [[\"fc\", \"Linear\"], [\"note\", \"Board\"], [\"x\", \"Input\"]], \"edges\": " ++
  "[[\"e\", \"x\", \"out\", \"fc\"], [\"e\", \"x\", \"out\", \"note\"]]\x7d"

/-- Two images, one of which enters a softmax and a sum. -/
def imagesText : String :=
  "x = Input()\ny = Input()\nsoft = Softmax()\nsum = Add()\nx -> soft\nx -> sum\n"

/-- A run on a file with some proposals. -/
def Command.Invocation.on (path : String) (proposals : List Proposal) : Invocation :=
  ⟨path, none, .summary, proposals, false⟩

/-- Proposals play no part in loading. -/
theorem Command.loadContent_on (path : String) (proposals : List Proposal)
    (content : Except String String) :
    loadContent (.on path proposals) content = loadContent (.on path []) content := rfl

/-- The first text has a graph that is not valid. In the second the other image may enter the sum,
but not the softmax, which is taken. -/
theorem Graph.validity_is_one_runs :
    (∃ g, Command.loadContent (.on "m.json" []) (.ok mismatchText) = .ok g ∧
      g.recompute.edges.get? "e" = some (.invalid .dimensionMismatch
        "in_features expects 784, but the input provides 28") ∧
      g.recompute.blocked.map (·.1) = ["fc"] ∧
      (Command.check (.on "m.json" []) (.ok mismatchText)).exit = 1) ∧
    ∃ g, Command.loadContent (.on "m.ncg" []) (.ok imagesText) = .ok g ∧
      g.recompute.isValid = true ∧
      (Command.check (.on "m.ncg" [⟨"y", "out", "sum", "in"⟩]) (.ok imagesText)).exit = 0 ∧
      (Command.check (.on "m.ncg" [⟨"y", "out", "sum", "in"⟩, ⟨"y", "out", "soft", "in"⟩])
        (.ok imagesText)).exit = 1 := by
  constructor
  · obtain ⟨g, hload, hcheck⟩ := exists_ok_of_any
      (x := Command.loadContent (.on "m.json" []) (.ok mismatchText))
      (P := fun g => decide (g.recompute.edges.get? "e" = some (.invalid .dimensionMismatch
          "in_features expects 784, but the input provides 28") ∧
        g.recompute.blocked.map (·.1) = ["fc"])) (by decide +kernel)
    obtain ⟨hinvalid, hblocked⟩ := of_decide_eq_true hcheck
    obtain ⟨hvalid, -, -, hexit⟩ := validity_is_one g
    refine ⟨g, hload, hinvalid, hblocked, (hexit _ _ hload).2.2 fun hall => ?_⟩
    rw [hvalid.1 hall.1] at hblocked
    cases hblocked
  · obtain ⟨g, hload, hcheck⟩ := exists_ok_of_any
      (x := Command.loadContent (.on "m.ncg" []) (.ok imagesText))
      (P := fun g => decide (g.recompute.isValid = true ∧
        Judgement.isAccepted (Proposal.judgeAgainst g g.recompute ⟨"y", "out", "sum", "in"⟩) =
          true ∧
        Judgement.isAccepted (Proposal.judgeAgainst g g.recompute ⟨"y", "out", "soft", "in"⟩) =
          false)) (by decide +kernel)
    obtain ⟨hvalid, hsum, hsoft⟩ := of_decide_eq_true hcheck
    have hexit (proposals : List Proposal) := (validity_is_one g).2.2.2
      (.on "m.ncg" proposals) (.ok imagesText) ((Command.loadContent_on ..).trans hload)
    refine ⟨g, hload, hvalid, (hexit _).1.2 ⟨hvalid, ?_⟩, (hexit _).2.2 fun hall => ?_⟩
    · exact List.forall_mem_singleton.2 hsum
    · have haccepted :=
        hall.2 ⟨"y", "out", "soft", "in"⟩ (List.mem_cons_of_mem _ List.mem_cons_self)
      rw [hsoft] at haccepted
      cases haccepted

end ShapeFlow
