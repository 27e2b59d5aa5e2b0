import ShapeFlow.Proofs.Equations
import Mathlib.Algebra.GroupWithZero.Nat
import Mathlib.Data.String.Basic

/-!
# The sweep edge by edge

A visit releases all edges out of a node together. Here they are released one at a time, in the
order of their targets: each takes one off a count, and the node whose count comes down to 0 is
next. A count of 0 cannot be taken down, and the loop goes on for as long as there is a node to
visit.

* `Sweep.exists_releaseOne`: releasing edges one at a time succeeds if no more are released than are
  held.
* `Sweep.Sound.visitByOne`: one visit, edge by edge, does what `step` does, up to the order of the
  nodes that it frees.
* `Sweep.runByOne_sound`, `Sweep.runByOne?_eq_run`: so does the loop, until its queue is empty.
* `Graph.order_eq_byOne`: the order in which a graph is evaluated is found edge by edge.
* `sweep_counts_down`: **every node is visited once, behind all of its sources, or is stuck, and no
  count is taken below 0.**
-/

namespace ShapeFlow

namespace Sweep

variable {edges : List Edge} {nodes queue targets rest : List NodeId} {node target n : NodeId}
  {s t : Sweep} {held : List (NodeId × Nat)} {count : Nat}

/-- Takes one off the count of a node. -/
def lowered (target : NodeId) (held : List (NodeId × Nat)) : List (NodeId × Nat) :=
  held.map (fun (node, count) => (node, if node = target then count - 1 else count))

/-- Releases one edge into a node, which is next if it was the last one. There is no result if no
edge is held. What is not among the nodes is passed over. -/
def releaseOne? (s : Sweep) (target : NodeId) : Option Sweep :=
  match s.held.lookup target with
  | none => some s
  | some 0 => none
  | some (count + 1) => some { s with
      queue := if count = 0 then s.queue ++ [target] else s.queue
      held := lowered target s.held }

/-- The targets of the edges out of a node in the order of ids, each as often as there are edges. -/
def targetsFrom (edges : List Edge) (node : NodeId) : List NodeId :=
  ((edgesFrom edges node).map (·.target)).mergeSort (fun a b => decide (a ≤ b))

/-- Visits the first node of the queue and releases the edges out of it one at a time. -/
def visitByOne? (edges : List Edge) (s : Sweep) (node : NodeId) (queue : List NodeId) :
    Option Sweep :=
  (targetsFrom edges node).foldlM releaseOne?
    { s with visited := s.visited ++ [node], queue := queue }

/-- What bounds the visits to come: the nodes that are next and the edges that may free others. -/
def pending (s : Sweep) : Nat := s.queue.length + (s.held.map (·.2)).sum

theorem lowered_cons (target : NodeId) (entry : NodeId × Nat) (rest : List (NodeId × Nat)) :
    lowered target (entry :: rest) =
      (entry.1, if entry.1 = target then entry.2 - 1 else entry.2) :: lowered target rest := rfl

theorem sum_lowered_le (target : NodeId) (held : List (NodeId × Nat)) :
    ((lowered target held).map (·.2)).sum ≤ (held.map (·.2)).sum := by
  induction held with
  | nil => exact Nat.le_refl _
  | cons entry rest ih =>
    simp only [lowered_cons, List.map_cons, List.sum_cons]
    split <;> omega

theorem sum_lowered_lt (h : held.lookup target = some (count + 1)) :
    ((lowered target held).map (·.2)).sum < (held.map (·.2)).sum := by
  induction held with
  | nil => cases h
  | cons entry rest ih =>
    obtain ⟨name, other⟩ := entry
    have hrest := sum_lowered_le target rest
    rw [Table.lookup_cons_eq] at h
    simp only [lowered_cons, List.map_cons, List.sum_cons]
    split at h
    · next hname =>
      obtain rfl := Option.some.inj h
      rw [if_pos hname.symm]
      omega
    · next hname =>
      rw [if_neg (Ne.symm hname)]
      exact Nat.add_lt_add_left (ih h) other

/-- Releasing an edge frees one node at most, for an edge that is no longer held. -/
theorem pending_releaseOne? (h : releaseOne? s target = some t) :
    t.pending ≤ s.pending := by
  unfold releaseOne? at h
  split at h
  · obtain rfl := Option.some.inj h
    exact Nat.le_refl _
  · cases h
  · next count hcount =>
    obtain rfl := Option.some.inj h
    have hsum := sum_lowered_lt hcount
    simp only [pending]
    split
    · rw [List.length_append, List.length_singleton]
      omega
    · omega

theorem pending_foldlM (h : targets.foldlM releaseOne? s = some t) : t.pending ≤ s.pending := by
  induction targets generalizing s with
  | nil =>
    obtain rfl := Option.some.inj h
    exact Nat.le_refl _
  | cons target rest ih =>
    rw [List.foldlM_cons, Option.bind_eq_bind, Option.bind_eq_some_iff] at h
    obtain ⟨between, htarget, hrest⟩ := h
    exact (ih hrest).trans (pending_releaseOne? htarget)

theorem pending_visitByOne? (hq : s.queue = node :: queue)
    (h : visitByOne? edges s node queue = some t) : t.pending < s.pending := by
  have hle := pending_foldlM h
  simp only [pending, hq, List.length_cons] at hle ⊢
  omega

/-- Visits nodes until the queue is empty. There is no bound on the number of visits. -/
def runByOne? (edges : List Edge) (s : Sweep) : Option Sweep :=
  match _hqueue : s.queue with
  | [] => some s
  | node :: queue =>
    match _hvisit : visitByOne? edges s node queue with
    | none => none
    | some t => runByOne? edges t
termination_by s.pending
decreasing_by exact pending_visitByOne? _hqueue _hvisit

/-! ## One visit -/

theorem lookup_lowered (target : NodeId) (held : List (NodeId × Nat)) (n : NodeId) :
    (lowered target held).lookup n =
      (held.lookup n).map (fun count => if n = target then count - 1 else count) := by
  induction held with
  | nil => rfl
  | cons entry rest ih =>
    rw [lowered_cons, Table.lookup_cons_eq, Table.lookup_cons_eq, ih]
    by_cases hn : n = entry.1
    · rw [if_pos hn, if_pos hn, hn, Option.map_some]
    · rw [if_neg hn, if_neg hn]

theorem lowered_of_lookup_eq_none (h : held.lookup target = none) :
    lowered target held = held := by
  induction held with
  | nil => rfl
  | cons entry rest ih =>
    obtain ⟨name, count⟩ := entry
    rw [Table.lookup_cons_eq] at h
    split at h
    · cases h
    · next hname => rw [lowered_cons, ih h, if_neg (Ne.symm hname)]

theorem map_lowered (target : NodeId) (rest : List NodeId) (held : List (NodeId × Nat)) :
    (lowered target held).map (fun (n, count) => (n, count - rest.count n)) =
      held.map (fun (n, count) => (n, count - (target :: rest).count n)) := by
  rw [lowered, List.map_map]
  refine List.map_congr_left fun entry _ => ?_
  simp only [Function.comp_apply, List.count_cons, Prod.mk.injEq, true_and, beq_iff_eq]
  by_cases hn : entry.1 = target
  · rw [if_pos hn, if_pos hn.symm]
    omega
  · rw [if_neg hn, if_neg (Ne.symm hn)]
    omega

/-- Of every node as many edges are held at least as are to be released. -/
def Holds (held : List (NodeId × Nat)) (targets : List NodeId) : Prop :=
  ∀ n count, held.lookup n = some count → targets.count n ≤ count

theorem Holds.pos (h : Holds held (target :: rest)) (hcount : held.lookup target = some count) :
    0 < count := by
  have hle := h target count hcount
  rw [List.count_cons_self] at hle
  omega

/-- The last edge into a node is released behind all others. -/
theorem Holds.not_mem_of_last (h : Holds held (target :: rest))
    (hlast : held.lookup target = some 1) : target ∉ rest := by
  have hle := h target 1 hlast
  rw [List.count_cons_self] at hle
  exact List.count_eq_zero.1 (by omega)

theorem Holds.tail (h : Holds held (target :: rest)) : Holds (lowered target held) rest := by
  intro n count hcount
  rw [lookup_lowered, Option.map_eq_some_iff] at hcount
  obtain ⟨before, hbefore, rfl⟩ := hcount
  have hle := h n before hbefore
  rw [List.count_cons] at hle
  by_cases hn : n = target
  · subst hn
    simp only [beq_self_eq_true, if_true] at hle ⊢
    omega
  · simpa [hn, Ne.symm hn] using hle

/-- Exactly the edges to be released are held, before one of them is released as after it. -/
theorem Holds.lookup_lowered_iff (h : Holds held (target :: rest)) :
    (lowered target held).lookup n = some (rest.count n) ↔
      held.lookup n = some ((target :: rest).count n) := by
  rw [lookup_lowered, List.count_cons]
  by_cases hn : n = target
  · subst hn
    cases hcount : held.lookup n with
    | none => simp
    | some count =>
      have hpos := h.pos hcount
      simp only [Option.map_some, if_true, beq_self_eq_true, Option.some.injEq]
      omega
  · have hne : (target == n) = false := beq_false_of_ne (Ne.symm hn)
    simp [hn, hne]

/-- Releasing an edge succeeds if one is held. -/
theorem releaseOne?_of_holds (h : Holds s.held (target :: rest)) :
    releaseOne? s target = some { s with
      queue := s.queue ++ if s.held.lookup target = some 1 then [target] else []
      held := lowered target s.held } := by
  unfold releaseOne?
  split
  · next hnone => simp [hnone, lowered_of_lookup_eq_none]
  · next hzero => exact absurd (h.pos hzero) (Nat.lt_irrefl 0)
  · next count hcount =>
    rw [hcount]
    by_cases hlast : count = 0 <;> simp [hlast]

/-- **Releasing edges one at a time** succeeds if no more into any node are released than are held.
It frees the nodes of which no edge is held any more, each once and in the order of the edges. -/
theorem exists_releaseOne (targets : List NodeId) (s : Sweep) (h : Holds s.held targets) :
    ∃ opened : List NodeId,
      targets.foldlM releaseOne? s = some { s with
        queue := s.queue ++ opened
        held := s.held.map (fun (n, count) => (n, count - targets.count n)) } ∧
      opened.Sublist targets ∧ opened.Nodup ∧
      ∀ n, n ∈ opened ↔ n ∈ targets ∧ s.held.lookup n = some (targets.count n) := by
  induction targets generalizing s with
  | nil => exact ⟨[], by simp, List.Sublist.refl _, List.nodup_nil, by simp⟩
  | cons target rest ih =>
    obtain ⟨opened, hrun, hsub, hnodup, hmem⟩ := ih
      { s with
        queue := s.queue ++ if s.held.lookup target = some 1 then [target] else []
        held := lowered target s.held } h.tail
    have hmem' : ∀ n, n ∈ opened ↔
        n ∈ rest ∧ s.held.lookup n = some ((target :: rest).count n) := fun n => by
      rw [hmem n, h.lookup_lowered_iff]
    rw [List.foldlM_cons, releaseOne?_of_holds h, Option.bind_eq_bind, Option.bind_some, hrun,
      map_lowered]
    by_cases hlast : s.held.lookup target = some 1
    · -- the node is freed here and not again
      have hnot := h.not_mem_of_last hlast
      refine ⟨target :: opened, by simp [hlast], hsub.cons_cons target, ?_, ?_⟩
      · exact List.nodup_cons.2 ⟨fun hopened => hnot (hsub.subset hopened), hnodup⟩
      · intro n
        rw [List.mem_cons, List.mem_cons, hmem']
        constructor
        · rintro (rfl | ⟨hn, hcount⟩)
          · rw [List.count_cons_self, List.count_eq_zero.2 hnot]
            exact ⟨Or.inl rfl, hlast⟩
          · exact ⟨Or.inr hn, hcount⟩
        · rintro ⟨rfl | hn, hcount⟩
          · exact Or.inl rfl
          · exact Or.inr ⟨hn, hcount⟩
    · refine ⟨opened, by simp [hlast], hsub.cons target, hnodup, fun n => ?_⟩
      rw [hmem', List.mem_cons]
      constructor
      · rintro ⟨hn, hcount⟩
        exact ⟨Or.inr hn, hcount⟩
      · rintro ⟨rfl | hn, hcount⟩
        · -- more than one edge is held, so that another one is to be released
          refine ⟨List.count_pos_iff.1 (Nat.pos_of_ne_zero fun hzero => hlast ?_), hcount⟩
          rw [hcount, List.count_cons_self, hzero]
        · exact ⟨hn, hcount⟩

theorem count_targetsFrom (edges : List Edge) (node n : NodeId) :
    (targetsFrom edges node).count n = countInto (edgesFrom edges node) n := by
  rw [targetsFrom, (List.mergeSort_perm _ _).count_eq, List.count_eq_countP, List.countP_map]
  rfl

theorem targetsFrom_ascending (edges : List Edge) (node : NodeId) :
    (targetsFrom edges node).Pairwise (· ≤ ·) :=
  List.sortedLE_mergeSort.pairwise

theorem Sound.lookup_held_iff (h : Sound edges nodes s) :
    s.held.lookup n = some count ↔
      n ∈ nodes ∧ countInto (unreleased edges s.visited) n = count := by
  rw [h.held]
  by_cases hn : n ∈ nodes
  · rw [List.lookup_graph _ hn, Option.some.injEq, and_iff_right hn]
  · have hnone : (nodes.map (fun n => (n, countInto (unreleased edges s.visited) n))).lookup n =
        none := by
      refine List.lookup_eq_none_iff.2 fun entry hentry => ?_
      obtain ⟨m, hm, rfl⟩ := List.mem_map.1 hentry
      exact bne_iff_ne.2 fun heq => hn (heq ▸ hm)
    simp [hnone, hn]

/-- **No visit releases more edges than are held.** -/
theorem Sound.countInto_le (h : Sound edges nodes s) (hq : s.queue = node :: queue) :
    ∀ entry ∈ s.held, countInto (edgesFrom edges node) entry.1 ≤ entry.2 := by
  rw [h.held]
  intro entry hentry
  obtain ⟨m, -, rfl⟩ := List.mem_map.1 hentry
  have hsplit := countInto_unreleased_visit edges m (h.next hq).1
  exact hsplit ▸ Nat.le_add_left _ _

theorem Sound.holds (h : Sound edges nodes s) (hq : s.queue = node :: queue) :
    Holds s.held (targetsFrom edges node) := by
  intro n count hcount
  obtain ⟨before, after, hheld, -⟩ := List.lookup_eq_some_iff.1 hcount
  rw [count_targetsFrom]
  exact h.countInto_le hq (n, count) (hheld ▸ List.mem_append_right before List.mem_cons_self)

/-- **A visit edge by edge** does what `step` does, up to the order of the nodes that it frees: they
are freed in the order of their ids. -/
theorem Sound.visitByOne (hnodes : nodes.Nodup) (h : Sound edges nodes s)
    (hq : s.queue = node :: queue) :
    ∃ opened : List NodeId,
      visitByOne? edges s node queue =
        some { step edges s node queue with queue := queue ++ opened } ∧
      opened.Perm (freed (edgesFrom edges node) s.held) ∧ opened.Pairwise (· < ·) := by
  obtain ⟨opened, hrun, hsub, hnodup, hmem⟩ := exists_releaseOne (targetsFrom edges node)
    { s with visited := s.visited ++ [node], queue := queue } (h.holds hq)
  refine ⟨opened, ?_, ?_, ?_⟩
  · rw [visitByOne?, hrun]
    simp only [step, release, count_targetsFrom]
  · refine (List.perm_ext_iff_of_nodup hnodup (h.freed_nodup hnodes)).2 fun n => ?_
    have hsplit := countInto_unreleased_visit edges n (h.next hq).1
    rw [hmem, h.mem_freed (h.next hq).1, h.lookup_held_iff, ← List.count_pos_iff, count_targetsFrom]
    constructor
    · rintro ⟨hpos, hn, hcount⟩
      exact ⟨hn, by omega, by omega⟩
    · rintro ⟨hn, hzero, hne⟩
      exact ⟨by omega, hn, by omega⟩
  · have hle := (targetsFrom_ascending edges node).sublist hsub
    exact (hle.and hnodup).imp fun hboth => lt_of_le_of_ne hboth.1 hboth.2

/-! ## The whole loop -/

/-- A sweep remains sound in whatever order the nodes are that are next. -/
theorem Sound.of_perm (h : Sound edges nodes s) (hperm : queue.Perm s.queue) :
    Sound edges nodes { s with queue := queue } where
  held := h.held
  nodup := (hperm.append_left s.visited).nodup_iff.2 h.nodup
  free n := (hperm.append_left s.visited).mem_iff.trans (h.free n)
  ordered := h.ordered

theorem Sound.exists_visitByOne (hnodes : nodes.Nodup) (h : Sound edges nodes s)
    (hq : s.queue = node :: queue) :
    ∃ t, visitByOne? edges s node queue = some t ∧ Sound edges nodes t := by
  obtain ⟨opened, hvisit, hperm, -⟩ := h.visitByOne hnodes hq
  exact ⟨_, hvisit, (step_sound hnodes h hq).of_perm (hperm.append_left queue)⟩

/-- Nodes in the order of their ids are freed in that order. -/
theorem Sound.visitByOne?_eq_step (hsorted : nodes.Pairwise (· < ·)) (h : Sound edges nodes s)
    (hq : s.queue = node :: queue) :
    visitByOne? edges s node queue = some (step edges s node queue) := by
  obtain ⟨opened, hvisit, hperm, hopened⟩ := h.visitByOne (hsorted.imp ne_of_lt) hq
  have hfreed : (freed (edgesFrom edges node) s.held).Pairwise (· < ·) :=
    (h.names_held ▸ hsorted).sublist (List.filter_sublist.map _)
  rw [hvisit, hopened.eq_of_mem_iff hfreed fun n => hperm.mem_iff]
  rfl

theorem runByOne?_of_nil (hq : s.queue = []) : runByOne? edges s = some s := by
  rw [runByOne?]
  split
  · rfl
  · next hcons => cases hq.symm.trans hcons

theorem runByOne?_of_visit (hq : s.queue = node :: queue)
    (hvisit : visitByOne? edges s node queue = some t) :
    runByOne? edges s = runByOne? edges t := by
  rw [runByOne?]
  split
  · next hnil => cases hq.symm.trans hnil
  · next first rest hcons =>
    obtain ⟨rfl, rfl⟩ := List.cons.inj (hcons.symm.trans hq)
    split
    · next hnone => cases hnone.symm.trans hvisit
    · next found hfound => rw [Option.some.inj (hfound.symm.trans hvisit)]

/-- **The loop ends, sound and with nothing left to visit.** -/
theorem runByOne_sound (hnodes : nodes.Nodup) (h : Sound edges nodes s) :
    ∃ last, runByOne? edges s = some last ∧ Sound edges nodes last ∧ last.queue = [] := by
  -- by induction on what bounds the visits to come
  induction hpending : s.pending using Nat.strongRecOn generalizing s with
  | ind bound ih =>
    cases hq : s.queue with
    | nil => exact ⟨s, runByOne?_of_nil hq, h, hq⟩
    | cons node queue =>
      obtain ⟨t, hvisit, ht⟩ := h.exists_visitByOne hnodes hq
      have hless : t.pending < bound := hpending ▸ pending_visitByOne? hq hvisit
      rw [runByOne?_of_visit hq hvisit]
      exact ih t.pending hless ht rfl

/-- **The loop does what `run` does** on nodes in the order of their ids. -/
theorem runByOne?_eq_run (hsorted : nodes.Pairwise (· < ·)) (fuel : Nat) (h : Sound edges nodes s)
    (hfuel : nodes.length ≤ s.visited.length + fuel) :
    runByOne? edges s = some (run edges fuel s) := by
  have hnodes : nodes.Nodup := hsorted.imp ne_of_lt
  induction fuel generalizing s with
  | zero => exact runByOne?_of_nil (run_queue hnodes 0 h hfuel)
  | succ fuel ih =>
    unfold run
    split
    · next hq => exact runByOne?_of_nil hq
    · next node queue hq =>
      rw [runByOne?_of_visit hq (h.visitByOne?_eq_step hsorted hq)]
      refine ih (step_sound hnodes h hq) ?_
      simp only [step, List.length_append, List.length_singleton]
      omega

end Sweep

open Sweep

variable {nodes : List NodeId} {edges : List Edge} {s : Sweep}

/-- The nodes in the order of their visits, and those never reached, found edge by edge. -/
def sweepByOne? (nodes : List NodeId) (edges : List Edge) : Option (List NodeId × List NodeId) :=
  (runByOne? edges (start edges nodes)).map outcome

/-- **On nodes in the order of their ids the sweep is the one edge by edge.** -/
theorem sweepByOne?_eq_sweep (hsorted : nodes.Pairwise (· < ·)) (edges : List Edge) :
    sweepByOne? nodes edges = some (sweep nodes edges) := by
  rw [sweepByOne?, sweep_eq_outcome, runByOne?_eq_run hsorted nodes.length
    (start_sound edges (hsorted.imp ne_of_lt)) (Nat.le_add_left _ _), Option.map_some]

/-- The order in which a graph is evaluated is found edge by edge. -/
theorem Graph.order_eq_byOne (g : Graph) :
    sweepByOne? (g.tensorNodes.map (·.1)) g.activeEdges = some g.order :=
  sweepByOne?_eq_sweep g.tensorIds_ascending g.activeEdges

/-- **What a sweep that is over owes to its nodes and edges**: each node is visited or stuck, once,
and nothing else is; every source is visited before its targets; and a stuck node waits for a stuck
node. -/
structure Settles (nodes : List NodeId) (edges : List Edge) (outcome : List NodeId × List NodeId) :
    Prop where
  perm : (outcome.1 ++ outcome.2).Perm nodes
  nodup : (outcome.1 ++ outcome.2).Nodup
  ordered : Ordered edges outcome.1
  waits : ∀ n ∈ outcome.2, ∃ e ∈ edges, e.target = n ∧ e.source ∈ outcome.2

theorem Sweep.Sound.outcome_nodup (hnodes : nodes.Nodup) (h : Sound edges nodes s)
    (hqueue : s.queue = []) : (s.outcome.1 ++ s.outcome.2).Nodup := by
  have hstuck : s.outcome.2.Nodup := (h.names_held ▸ hnodes).sublist (List.filter_sublist.map _)
  refine List.nodup_append.2 ⟨(List.nodup_append.1 h.nodup).1, hstuck, ?_⟩
  rintro a ha b hb rfl
  exact ((h.mem_stuck_iff hqueue).1 hb).2 ha

/-- **A sweep that is over settles its nodes.** -/
theorem Sweep.Sound.settles (hnodes : nodes.Nodup) (hsources : ∀ e ∈ edges, e.source ∈ nodes)
    (h : Sound edges nodes s) (hqueue : s.queue = []) : Settles nodes edges s.outcome where
  perm := by
    refine (List.perm_ext_iff_of_nodup (h.outcome_nodup hnodes hqueue) hnodes).2 fun n => ?_
    rw [List.mem_append, h.mem_stuck_iff hqueue]
    have hvisited : n ∈ s.outcome.1 → n ∈ nodes := fun hn =>
      ((h.mem_visited_iff_free hqueue).1 hn).1
    by_cases hn : n ∈ s.outcome.1
    · simp [hn, hvisited hn]
    · have hn' : n ∉ s.visited := hn
      simp [hn, hn']
  nodup := h.outcome_nodup hnodes hqueue
  ordered := h.ordered
  waits := by
    intro n hn
    obtain ⟨hnode, hnot⟩ := (h.mem_stuck_iff hqueue).1 hn
    -- if all sources were visited, the node would be as well
    by_contra hnone
    refine hnot ((h.mem_visited_iff_free hqueue).2 ⟨hnode, fun e he ht => ?_⟩)
    by_contra hs
    exact hnone ⟨e, he, ht, (h.mem_stuck_iff hqueue).2 ⟨hsources e he, hs⟩⟩

/-- Sweeps that are over are stuck at the same nodes. -/
theorem Sweep.Sound.stuck_eq {t : Sweep} (hsources : ∀ e ∈ edges, e.source ∈ nodes)
    (hs : Sound edges nodes s) (hsqueue : s.queue = []) (ht : Sound edges nodes t)
    (htqueue : t.queue = []) : s.outcome.2 = t.outcome.2 := by
  have hvisited : ∀ n, n ∈ s.visited ↔ n ∈ t.visited := fun n => by
    rw [hs.mem_visited_iff_acc hsqueue hsources, ht.mem_visited_iff_acc htqueue hsources]
  have hunreleased : unreleased edges s.visited = unreleased edges t.visited :=
    List.filter_congr fun e _ => by simp [hvisited]
  rw [outcome, outcome, hs.held, ht.held, hunreleased]

/-- **The sweep counts down.** Of nodes without repetition, each is visited once, behind all of its
sources, or is stuck, and then an edge leads to it from a stuck node. No visit releases more edges
into a node than are held, and at the end there is nothing left to visit. Releasing the edges one at
a time comes to an end as well, without ever taking down a count of 0. It leaves the same nodes
stuck and visits the others in an order that keeps to the same rules, and in the same one if the
nodes are given in the order of their ids. -/
theorem sweep_counts_down (nodes : List NodeId) (edges : List Edge) (hnodes : nodes.Nodup)
    (hsources : ∀ e ∈ edges, e.source ∈ nodes) :
    Settles nodes edges (sweep nodes edges) ∧
    (∀ visits node queue, (run edges visits (start edges nodes)).queue = node :: queue →
      ∀ entry ∈ (run edges visits (start edges nodes)).held,
        countInto (edgesFrom edges node) entry.1 ≤ entry.2) ∧
    (run edges nodes.length (start edges nodes)).queue = [] ∧
    ∃ order, sweepByOne? nodes edges = some (order, (sweep nodes edges).2) ∧
      Settles nodes edges (order, (sweep nodes edges).2) ∧
      (nodes.Pairwise (· < ·) → order = (sweep nodes edges).1) := by
  have hstart := start_sound edges hnodes
  have hsound := sweep_sound edges hnodes
  have hqueue := sweep_queue edges hnodes
  obtain ⟨last, hlast, hlastSound, hlastQueue⟩ := runByOne_sound hnodes hstart
  have hstuck : last.outcome.2 = (sweep nodes edges).2 :=
    hlastSound.stuck_eq hsources hlastQueue hsound hqueue
  have hfound : sweepByOne? nodes edges = some (last.visited, (sweep nodes edges).2) := by
    rw [sweepByOne?, hlast, Option.map_some, ← hstuck]
    rfl
  refine ⟨hsound.settles hnodes hsources hqueue, fun visits node queue hq => ?_, hqueue,
    last.visited, hfound, ?_, fun hsorted => ?_⟩
  · exact (run_sound hnodes visits hstart).countInto_le hq
  · exact hstuck ▸ hlastSound.settles hnodes hsources hlastQueue
  · have hsame := hfound.symm.trans (sweepByOne?_eq_sweep hsorted edges)
    exact congrArg Prod.fst (Option.some.inj hsame)

/-- Two edges from one node to another, a loop, and a node behind the loop and both others. -/
def looped : List Edge :=
  [⟨"first", "a", "out", "b", "in"⟩, ⟨"again", "a", "out", "b", "other"⟩,
    ⟨"loop", "c", "out", "c", "in"⟩, ⟨"behind", "c", "out", "d", "in"⟩,
    ⟨"beside", "b", "out", "d", "in"⟩, ⟨"across", "a", "out", "d", "in"⟩]

/-- The loop is stuck, and so is what lies behind it, though two of its edges are released. -/
theorem sweep_counts_down_looped :
    Settles ["a", "b", "c", "d"] looped (["a", "b"], ["c", "d"]) ∧
      sweepByOne? ["a", "b", "c", "d"] looped = some (["a", "b"], ["c", "d"]) := by
  have hsweep : sweep ["a", "b", "c", "d"] looped = (["a", "b"], ["c", "d"]) := by decide
  obtain ⟨hsettles, -, -, order, hfound, -, hsame⟩ :=
    sweep_counts_down ["a", "b", "c", "d"] looped (by decide) (by decide)
  rw [hsame (by decide)] at hfound
  rw [hsweep] at hsettles hfound
  exact ⟨hsettles, hfound⟩

end ShapeFlow
