import ShapeFlow.Graph.Basic
import Mathlib.Data.Set.Finite.Lattice
import Mathlib.Logic.Relation
import Mathlib.Order.OrderIsoNat

/-!
# Reachability along edges

* `Linked`: one edge of a list leads from a node to another. Paths are the closures of this
  relation, and a node is *well founded* along the edges when it is accessible by it.
* `acc_of_ordered`: what can be listed with all predecessors first is well founded.
* `not_acc_iff_behindCycle`: **the nodes that are not well founded are those on a cycle and those
  reached from one.**
-/

namespace ShapeFlow

open Relation

variable {edges : List Edge} {n : NodeId}

/-- An edge leads from one node to another. -/
def Linked (edges : List Edge) (a b : NodeId) : Prop := ∃ e ∈ edges, e.source = a ∧ e.target = b

/-- A node lies on a cycle; one edge from the node to itself is a cycle. -/
def OnCycle (edges : List Edge) (n : NodeId) : Prop := TransGen (Linked edges) n n

/-- A node lies on a cycle or is reached from one. -/
def BehindCycle (edges : List Edge) (n : NodeId) : Prop :=
  ∃ c, OnCycle edges c ∧ ReflTransGen (Linked edges) c n

theorem linked_of_mem {e : Edge} (he : e ∈ edges) : Linked edges e.source e.target :=
  ⟨e, he, rfl, rfl⟩

theorem Linked.mono {more : List Edge} (h : edges ⊆ more) {a b : NodeId} (hab : Linked edges a b) :
    Linked more a b := by
  obtain ⟨e, he, hs, ht⟩ := hab
  exact ⟨e, h he, hs, ht⟩

/-- What is reached from a member of a list stays in the list, if the edges out of it do. -/
theorem mem_of_reflTransGen (members : List NodeId) {a : NodeId}
    (hclosed : ∀ e ∈ edges, e.source ∈ members → e.target ∈ members) (ha : a ∈ members)
    (h : ReflTransGen (Linked edges) a n) : n ∈ members := by
  induction h with
  | refl => exact ha
  | tail _ hbc ih =>
    obtain ⟨e, he, rfl, rfl⟩ := hbc
    exact hclosed e he ih

/-- A list in which every predecessor of a member stands before it. -/
def Ordered (edges : List Edge) (order : List NodeId) : Prop :=
  ∀ before n after, order = before ++ n :: after →
    ∀ e ∈ edges, e.target = n → e.source ∈ before

theorem ordered_nil : Ordered edges [] := by
  intro before n after h
  simp at h

theorem ordered_append_singleton {order : List NodeId} :
    Ordered edges (order ++ [n]) ↔
      Ordered edges order ∧ ∀ e ∈ edges, e.target = n → e.source ∈ order := by
  constructor
  · intro h
    refine ⟨fun before m after hm => ?_, h order n [] rfl⟩
    exact h before m (after ++ [n]) (by rw [hm, List.append_assoc, List.cons_append])
  · rintro ⟨horder, hn⟩ before m after h
    rcases List.eq_nil_or_concat after with rfl | ⟨after, z, rfl⟩
    · obtain ⟨rfl, hm⟩ := List.append_inj' h rfl
      rw [List.cons.injEq] at hm
      exact hm.1 ▸ hn
    · rw [List.concat_eq_append, ← List.cons_append, ← List.append_assoc] at h
      exact horder before m after (List.append_inj' h rfl).1

theorem Ordered.source_mem {order : List NodeId} (h : Ordered edges order) (hn : n ∈ order) :
    ∀ e ∈ edges, e.target = n → e.source ∈ order := by
  obtain ⟨before, after, rfl⟩ := List.append_of_mem hn
  intro e he ht
  exact List.mem_append_left _ (h before n after rfl e he ht)

/-- **What is listed with all its predecessors first is well founded.** -/
theorem acc_of_ordered {order : List NodeId} (h : Ordered edges order) :
    ∀ n ∈ order, Acc (Linked edges) n := by
  induction order using List.reverseRecOn with
  | nil => simp
  | append_singleton order last ih =>
    obtain ⟨horder, hlast⟩ := ordered_append_singleton.1 h
    intro n hn
    rcases List.mem_append.1 hn with hn | hn
    · exact ih horder n hn
    · rw [List.mem_singleton] at hn
      subst hn
      refine Acc.intro n fun a ⟨e, he, hs, ht⟩ => ?_
      exact ih horder a (hs ▸ hlast e he ht)

theorem not_onCycle_of_acc (h : Acc (Linked edges) n) : ¬ OnCycle edges n := by
  -- by induction along paths, one of which would lead from the node back to itself
  have h' : Acc (TransGen (Linked edges)) n := acc_transGen_iff.2 h
  clear h
  induction h' with
  | intro n _ ih =>
    intro hn
    exact ih n hn hn

theorem acc_of_reflTransGen {a : NodeId} (h : Acc (Linked edges) n)
    (ha : ReflTransGen (Linked edges) a n) : Acc (Linked edges) a := by
  induction ha with
  | refl => exact h
  | tail _ hbc ih => exact ih (h.inv hbc)

/-- Being well founded depends on what lies before a node only. -/
theorem acc_of_agree {more : List Edge} {P : NodeId → Prop}
    (hback : ∀ a b, P b → Linked more a b → Linked edges a b ∧ P a) (hn : P n)
    (h : Acc (Linked edges) n) : Acc (Linked more) n := by
  induction h with
  | intro n _ ih =>
    refine Acc.intro n fun a ha => ?_
    obtain ⟨hedge, hpa⟩ := hback a n hn ha
    exact ih a hedge hpa

theorem BehindCycle.of_reflTransGen {a : NodeId} (ha : BehindCycle edges a)
    (h : ReflTransGen (Linked edges) a n) : BehindCycle edges n := by
  obtain ⟨c, hc, hca⟩ := ha
  exact ⟨c, hc, hca.trans h⟩

/-- Going back from a node that is not well founded never ends, and there are only finitely many
sources to go back to. -/
theorem behindCycle_of_not_acc (h : ¬ Acc (Linked edges) n) : BehindCycle edges n := by
  obtain ⟨f, rfl, hf⟩ := not_acc_iff_exists_descending_chain.1 h
  have hsource : ∀ i, f (i + 1) ∈ {a | a ∈ edges.map (·.source)} := by
    intro i
    obtain ⟨e, he, hs, -⟩ := hf i
    exact List.mem_map.2 ⟨e, he, hs⟩
  obtain ⟨i, j, hij, heq⟩ :=
    (List.finite_toSet (edges.map (·.source))).exists_lt_map_eq_of_forall_mem hsource
  have hpath : ∀ m k, TransGen (Linked edges) (f (m + k + 1)) (f m) := by
    intro m k
    induction k with
    | zero => exact TransGen.single (hf m)
    | succ k ih => exact TransGen.head (hf (m + k + 1)) ih
  -- the source met twice lies on a cycle, and the walk back from the node met it
  refine ⟨f (i + 1), ?_, ?_⟩
  · have hback := hpath (i + 1) (j - i - 1)
    rw [show i + 1 + (j - i - 1) + 1 = j + 1 by omega, ← heq] at hback
    exact hback
  · have hback := hpath 0 i
    rw [Nat.zero_add] at hback
    exact hback.to_reflTransGen

/-- **A node is well founded unless it lies on a cycle or is reached from one.** -/
theorem not_acc_iff_behindCycle : ¬ Acc (Linked edges) n ↔ BehindCycle edges n := by
  constructor
  · exact behindCycle_of_not_acc
  · rintro ⟨c, hc, hcn⟩ h
    exact not_onCycle_of_acc (acc_of_reflTransGen h hcn) hc

end ShapeFlow
