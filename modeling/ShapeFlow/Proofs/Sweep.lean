import ShapeFlow.Flow.Order
import ShapeFlow.Proofs.Reach

/-!
# The sweep visits the well-founded nodes

* `Sweep.Sound`: what is true of a sweep under way. The counts are those of the edges whose sources
  are not visited, and what is visited or next are the nodes without such edges.
* `Sweep.step_sound`, `Sweep.run_sound`: one visit and a whole run keep a sweep sound.
* `Sweep.Sound.mem_visited_iff_acc`, `Sweep.Sound.mem_stuck_iff`: what a sound sweep has come to
  when its queue is empty.
* `mem_sweep_visited`, `mem_sweep_stuck`: **the sweep visits the nodes that are well founded along
  the edges and is stuck at the others.**
* `sweep_visited_ordered`: every source is visited before its targets.
-/

namespace ShapeFlow

namespace Sweep

variable {edges : List Edge} {nodes queue visited : List NodeId} {node n : NodeId} {s : Sweep}

/-- The edges that a sweep still holds. -/
def unreleased (edges : List Edge) (visited : List NodeId) : List Edge :=
  edges.filter (fun e => !visited.contains e.source)

theorem countInto_unreleased_eq_zero :
    countInto (unreleased edges visited) n = 0 ↔
      ∀ e ∈ edges, e.target = n → e.source ∈ visited := by
  unfold countInto unreleased
  rw [List.countP_eq_zero]
  constructor
  · intro h e he ht
    by_contra hs
    exact h e (List.mem_filter.2 ⟨he, by simpa using hs⟩) (by simpa using ht)
  · intro h e he ht
    obtain ⟨he, hs⟩ := List.mem_filter.1 he
    have := h e he (by simpa using ht)
    simp [this] at hs

/-- A visit releases the edges out of the node and no others. -/
theorem countInto_unreleased_visit (edges : List Edge) (n : NodeId) (h : node ∉ visited) :
    countInto (unreleased edges visited) n =
      countInto (unreleased edges (visited ++ [node])) n + countInto (edgesFrom edges node) n := by
  unfold countInto unreleased edgesFrom
  induction edges with
  | nil => rfl
  | cons e rest ih =>
    simp only [List.countP_filter] at ih
    simp only [List.countP_filter, List.countP_cons]
    rw [ih]
    -- an edge out of the node is held before its visit only, and any other as before
    by_cases hs : e.source = node
    · subst hs
      simp [h]
      omega
    · by_cases hv : e.source ∈ visited <;> simp [hs, hv]
      omega

/-- **What is true of a sweep under way**, for nodes without repetition. -/
structure Sound (edges : List Edge) (nodes : List NodeId) (s : Sweep) : Prop where
  held : s.held = nodes.map (fun n => (n, countInto (unreleased edges s.visited) n))
  nodup : (s.visited ++ s.queue).Nodup
  free : ∀ n, n ∈ s.visited ++ s.queue ↔
    n ∈ nodes ∧ countInto (unreleased edges s.visited) n = 0
  ordered : Ordered edges s.visited

theorem start_sound (edges : List Edge) (hnodes : nodes.Nodup) :
    Sound edges nodes (start edges nodes) := by
  have hall : unreleased edges [] = edges := by simp [unreleased]
  refine ⟨?_, ?_, ?_, ordered_nil⟩
  · simp only [start, hall]
  · simpa [start] using hnodes.filter _
  · intro n
    simp [start, hall]

/-- A node that is next has all its sources behind it and is not visited. -/
theorem Sound.next (h : Sound edges nodes s) (hq : s.queue = node :: queue) :
    node ∉ s.visited ∧ ∀ e ∈ edges, e.target = node → e.source ∈ s.visited := by
  have hnodup := h.nodup
  rw [hq] at hnodup
  refine ⟨fun hv => (List.nodup_append.1 hnodup).2.2 node hv node List.mem_cons_self rfl, ?_⟩
  have hfree := (h.free node).1 (by rw [hq]; simp)
  exact countInto_unreleased_eq_zero.1 hfree.2

/-- A visit frees the nodes whose last held edges come out of the visited node. -/
theorem Sound.mem_freed (h : Sound edges nodes s) (hnode : node ∉ s.visited) :
    n ∈ freed (edgesFrom edges node) s.held ↔
      n ∈ nodes ∧ countInto (unreleased edges (s.visited ++ [node])) n = 0 ∧
        countInto (unreleased edges s.visited) n ≠ 0 := by
  have hsplit := countInto_unreleased_visit edges n hnode
  unfold freed
  rw [h.held]
  simp only [List.mem_map, List.mem_filter, Prod.exists, Bool.and_eq_true, decide_eq_true_eq]
  constructor
  · rintro ⟨m, count, ⟨⟨m', hm, heq⟩, hpos, hle⟩, rfl⟩
    obtain ⟨rfl, rfl⟩ := Prod.mk.inj heq
    exact ⟨hm, by omega, by omega⟩
  · rintro ⟨hn, hzero, hne⟩
    exact ⟨n, _, ⟨⟨n, hn, rfl⟩, by omega, by omega⟩, rfl⟩

theorem Sound.names_held (h : Sound edges nodes s) : s.held.map (·.1) = nodes := by
  simp [h.held, Function.comp_def]

theorem Sound.freed_nodup (h : Sound edges nodes s) (hnodes : nodes.Nodup) :
    (freed (edgesFrom edges node) s.held).Nodup :=
  (h.names_held ▸ hnodes).sublist (List.filter_sublist.map _)

/-- **One visit keeps a sweep sound.** -/
theorem step_sound (hnodes : nodes.Nodup) (h : Sound edges nodes s)
    (hq : s.queue = node :: queue) : Sound edges nodes (step edges s node queue) := by
  obtain ⟨hnode, hsources⟩ := h.next hq
  have hnodup := h.nodup
  have hfree := h.free
  rw [hq, List.append_cons] at hnodup hfree
  refine ⟨?_, ?_, ?_, ?_⟩
  · simp only [step, release, h.held, List.map_map]
    refine List.map_congr_left fun n _ => ?_
    have hsplit := countInto_unreleased_visit edges n hnode
    simp only [Function.comp_apply, Prod.mk.injEq, true_and]
    omega
  · simp only [step]
    rw [← List.append_assoc]
    refine List.nodup_append.2 ⟨hnodup, h.freed_nodup hnodes, ?_⟩
    -- what is freed had an edge to wait for, and what is visited or next has none
    rintro a ha b hb rfl
    exact ((h.mem_freed hnode).1 hb).2.2 ((hfree a).1 ha).2
  · intro n
    have hsplit := countInto_unreleased_visit edges n hnode
    simp only [step]
    rw [← List.append_assoc, List.mem_append, hfree n, h.mem_freed hnode]
    constructor
    · rintro (⟨hn, hzero⟩ | ⟨hn, hzero, -⟩)
      · exact ⟨hn, by omega⟩
      · exact ⟨hn, hzero⟩
    · rintro ⟨hn, hzero⟩
      by_cases hbefore : countInto (unreleased edges s.visited) n = 0
      · exact Or.inl ⟨hn, hbefore⟩
      · exact Or.inr ⟨hn, hzero, hbefore⟩
  · exact ordered_append_singleton.2 ⟨h.ordered, hsources⟩

/-- **A run keeps a sweep sound.** -/
theorem run_sound (hnodes : nodes.Nodup) (fuel : Nat) (h : Sound edges nodes s) :
    Sound edges nodes (run edges fuel s) := by
  induction fuel generalizing s with
  | zero => exact h
  | succ fuel ih =>
    unfold run
    split
    · exact h
    · next hq => exact ih (step_sound hnodes h hq)

/-- The number of nodes is fuel enough: every visit is of another node. -/
theorem run_queue (hnodes : nodes.Nodup) (fuel : Nat) (h : Sound edges nodes s)
    (hfuel : nodes.length ≤ s.visited.length + fuel) : (run edges fuel s).queue = [] := by
  induction fuel generalizing s with
  | zero =>
    -- as many nodes are visited as there are, so that none is left to be next
    have hsub : s.visited ++ s.queue ⊆ nodes := fun n hn => ((h.free n).1 hn).1
    have hlength := (h.nodup.subperm hsub).length_le
    rw [List.length_append] at hlength
    exact List.length_eq_zero_iff.1 (by simp only [run]; omega)
  | succ fuel ih =>
    unfold run
    split
    · next hq => exact hq
    · next hq =>
      refine ih (step_sound hnodes h hq) ?_
      simp only [step, List.length_append, List.length_singleton]
      omega

/-! ## Sweeps that are over -/

/-- What a sweep has come to: the nodes visited, and those into which edges are still held. -/
def outcome (s : Sweep) : List NodeId × List NodeId :=
  (s.visited, (s.held.filter (fun entry => 0 < entry.2)).map (·.1))

theorem Sound.mem_visited_iff_free (h : Sound edges nodes s) (hqueue : s.queue = []) :
    n ∈ s.visited ↔ n ∈ nodes ∧ ∀ e ∈ edges, e.target = n → e.source ∈ s.visited := by
  have hfree := h.free n
  rw [hqueue, List.append_nil, countInto_unreleased_eq_zero] at hfree
  exact hfree

/-- **A sweep that is over has visited the nodes that are well founded along the edges**, when all
sources of edges are among the nodes. -/
theorem Sound.mem_visited_iff_acc (h : Sound edges nodes s) (hqueue : s.queue = [])
    (hsources : ∀ e ∈ edges, e.source ∈ nodes) :
    n ∈ s.visited ↔ n ∈ nodes ∧ Acc (Linked edges) n := by
  constructor
  · intro hn
    exact ⟨((h.mem_visited_iff_free hqueue).1 hn).1, acc_of_ordered h.ordered n hn⟩
  · rintro ⟨hn, hacc⟩
    induction hacc with
    | intro n _ ih =>
      refine (h.mem_visited_iff_free hqueue).2 ⟨hn, fun e he ht => ?_⟩
      exact ih e.source (ht ▸ linked_of_mem he) (hsources e he)

theorem Sound.mem_stuck_iff_countInto (h : Sound edges nodes s) :
    n ∈ s.outcome.2 ↔ n ∈ nodes ∧ countInto (unreleased edges s.visited) n ≠ 0 := by
  simp only [outcome, h.held, List.mem_map, List.mem_filter, Prod.exists, Prod.mk.injEq,
    decide_eq_true_eq]
  constructor
  · rintro ⟨m, count, ⟨⟨m', hm, rfl, rfl⟩, hpos⟩, rfl⟩
    exact ⟨hm, by omega⟩
  · rintro ⟨hn, hne⟩
    exact ⟨n, _, ⟨⟨n, hn, rfl, rfl⟩, by omega⟩, rfl⟩

/-- A sweep that is over is stuck at the nodes that it has not visited. -/
theorem Sound.mem_stuck_iff (h : Sound edges nodes s) (hqueue : s.queue = []) :
    n ∈ s.outcome.2 ↔ n ∈ nodes ∧ n ∉ s.visited := by
  rw [h.mem_stuck_iff_countInto, h.mem_visited_iff_free hqueue, Ne, countInto_unreleased_eq_zero]
  constructor
  · rintro ⟨hn, hheld⟩
    exact ⟨hn, fun hv => hheld hv.2⟩
  · rintro ⟨hn, hv⟩
    exact ⟨hn, fun hall => hv ⟨hn, hall⟩⟩

end Sweep

variable {edges : List Edge} {nodes : List NodeId} {n : NodeId}

open Sweep

theorem sweep_eq_outcome (nodes : List NodeId) (edges : List Edge) :
    sweep nodes edges = (run edges nodes.length (start edges nodes)).outcome := rfl

theorem sweep_sound (edges : List Edge) (hnodes : nodes.Nodup) :
    Sound edges nodes (run edges nodes.length (start edges nodes)) :=
  run_sound hnodes _ (start_sound edges hnodes)

theorem sweep_queue (edges : List Edge) (hnodes : nodes.Nodup) :
    (run edges nodes.length (start edges nodes)).queue = [] :=
  run_queue hnodes nodes.length (start_sound edges hnodes) (Nat.le_add_left _ _)

theorem sweep_visited_nodup (hnodes : nodes.Nodup) : (sweep nodes edges).1.Nodup :=
  (List.nodup_append.1 (sweep_sound edges hnodes).nodup).1

/-- **Every source is visited before its targets.** -/
theorem sweep_visited_ordered (hnodes : nodes.Nodup) : Ordered edges (sweep nodes edges).1 :=
  (sweep_sound edges hnodes).ordered

/-- **The sweep visits the nodes that are well founded along the edges**, when all sources of edges
are among the nodes. -/
theorem mem_sweep_visited (hnodes : nodes.Nodup) (hsources : ∀ e ∈ edges, e.source ∈ nodes) :
    n ∈ (sweep nodes edges).1 ↔ n ∈ nodes ∧ Acc (Linked edges) n :=
  (sweep_sound edges hnodes).mem_visited_iff_acc (sweep_queue edges hnodes) hsources

/-- **The sweep is stuck at the nodes that are not well founded.** -/
theorem mem_sweep_stuck (hnodes : nodes.Nodup) (hsources : ∀ e ∈ edges, e.source ∈ nodes) :
    n ∈ (sweep nodes edges).2 ↔ n ∈ nodes ∧ ¬ Acc (Linked edges) n := by
  have hstuck := (sweep_sound edges hnodes).mem_stuck_iff (n := n) (sweep_queue edges hnodes)
  rw [sweep_eq_outcome, hstuck,
    (sweep_sound edges hnodes).mem_visited_iff_acc (sweep_queue edges hnodes) hsources]
  tauto

end ShapeFlow
