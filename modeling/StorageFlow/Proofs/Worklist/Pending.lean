/-
# StorageFlow.Proofs.Worklist.Pending — what a push and a pop do to the pending nodes.

The list of pending nodes and the set of queued ones are two views of one collection, and `Consistent` says
that they agree.  Every operation keeps them in agreement; seen through the list, a push adds its node
unless it is pending, and a pop splits the pending nodes into the node it takes and those that remain.  The
order in which nodes are taken does not matter for any of this, which is why both orders share the lemmas.
-/
import Mathlib.Data.List.Basic
import StorageFlow.Worklist

namespace StorageFlow.Worklist

universe u

variable {κ : Type u} [DecidableEq κ] {w : Worklist κ} {node k : κ}

/-! ## Pushing -/

theorem consistent_push (h : w.Consistent) (node : κ) : (w.push node).Consistent := by
  by_cases hq : node ∈ w.queued
  · rwa [push_of_mem hq]
  · have hp : node ∉ w.pending := fun hp => hq ((h.mem_queued_iff node).2 hp)
    constructor
    · rw [pending_push_of_not_mem hq]
      exact List.nodup_append.2 ⟨h.nodup, List.nodup_cons.2 ⟨List.not_mem_nil, .nil⟩, by
        rintro x hx y hy rfl
        exact hp (List.mem_singleton.1 hy ▸ hx)⟩
    · intro x
      rw [pending_push_of_not_mem hq, push, if_neg hq, FiniteSet.mem_insert, h.mem_queued_iff,
        List.mem_append, List.mem_singleton]

/-- A push makes its node pending and leaves all others as they were. -/
theorem mem_pending_push (h : w.Consistent) :
    k ∈ (w.push node).pending ↔ k ∈ w.pending ∨ k = node := by
  rw [← (consistent_push h node).mem_queued_iff, ← h.mem_queued_iff]
  by_cases hq : node ∈ w.queued
  · rw [push_of_mem hq]
    exact ⟨Or.inl, fun hk => hk.elim id fun e => e ▸ hq⟩
  · rw [push, if_neg hq, FiniteSet.mem_insert]

/-- A node that is pending keeps its place when it is pushed again. -/
theorem push_of_mem_pending (h : w.Consistent) (hp : node ∈ w.pending) :
    w.push node = w :=
  push_of_mem ((h.mem_queued_iff node).2 hp)

/-- A node that is not pending becomes the last one. -/
theorem pending_push (h : w.Consistent) (hp : node ∉ w.pending) :
    (w.push node).pending = w.pending ++ [node] :=
  pending_push_of_not_mem fun hq => hp ((h.mem_queued_iff node).1 hq)

/-! ## Popping -/

theorem pop_eq_none_iff : w.pop = none ↔ w.pending = [] := by
  unfold pop
  cases w.order with
  | lifo => simp
  | fifo => simp

/-- A pop takes one of the pending nodes and leaves the others pending. -/
theorem pending_perm_of_pop {rest : Worklist κ} (hpop : w.pop = some (node, rest)) :
    w.pending.Perm (node :: rest.pending) := by
  unfold pop at hpop
  cases horder : w.order with
  | lifo =>
      rw [horder] at hpop
      obtain ⟨last, hlast, he⟩ := Option.map_eq_some_iff.1 hpop
      obtain ⟨rfl, rfl⟩ := Prod.mk.inj he
      have hsplit : w.pending = w.pending.dropLast ++ [last] :=
        (List.dropLast_append_getLast? last hlast).symm
      show w.pending.Perm (last :: w.pending.dropLast)
      calc w.pending.Perm (w.pending.dropLast ++ [last]) := hsplit ▸ List.Perm.refl _
        List.Perm _ (last :: w.pending.dropLast) := List.perm_append_singleton _ _
  | fifo =>
      rw [horder] at hpop
      obtain ⟨first, hfirst, he⟩ := Option.map_eq_some_iff.1 hpop
      obtain ⟨rfl, rfl⟩ := Prod.mk.inj he
      show w.pending.Perm (first :: w.pending.tail)
      rw [List.cons_head?_tail hfirst]

theorem mem_of_pop {rest : Worklist κ} (hpop : w.pop = some (node, rest)) : node ∈ w.pending :=
  (pending_perm_of_pop hpop).mem_iff.2 List.mem_cons_self

/-- The set of queued nodes loses exactly the node that is taken. -/
theorem mem_queued_of_pop {rest : Worklist κ} (hpop : w.pop = some (node, rest)) :
    k ∈ rest.queued ↔ k ∈ w.queued ∧ k ≠ node := by
  unfold pop at hpop
  cases horder : w.order with
  | lifo =>
      rw [horder] at hpop
      obtain ⟨last, -, he⟩ := Option.map_eq_some_iff.1 hpop
      obtain ⟨rfl, rfl⟩ := Prod.mk.inj he
      exact FiniteSet.mem_erase
  | fifo =>
      rw [horder] at hpop
      obtain ⟨first, -, he⟩ := Option.map_eq_some_iff.1 hpop
      obtain ⟨rfl, rfl⟩ := Prod.mk.inj he
      exact FiniteSet.mem_erase

/-- Exactly the node that is taken stops being pending. -/
theorem mem_pending_of_pop {rest : Worklist κ} (h : w.Consistent)
    (hpop : w.pop = some (node, rest)) : k ∈ rest.pending ↔ k ∈ w.pending ∧ k ≠ node := by
  have hperm := pending_perm_of_pop hpop
  obtain ⟨hfresh, -⟩ := List.nodup_cons.1 (hperm.nodup_iff.1 h.nodup)
  rw [hperm.mem_iff, List.mem_cons]
  constructor
  · intro hk
    exact ⟨.inr hk, fun e => hfresh (e ▸ hk)⟩
  · rintro ⟨hk, hne⟩
    exact hk.resolve_left hne

theorem consistent_of_pop {rest : Worklist κ} (h : w.Consistent) (hpop : w.pop = some (node, rest)) :
    rest.Consistent := by
  constructor
  · exact (List.nodup_cons.1 ((pending_perm_of_pop hpop).nodup_iff.1 h.nodup)).2
  · intro k
    rw [mem_queued_of_pop hpop, h.mem_queued_iff, mem_pending_of_pop h hpop]

end StorageFlow.Worklist
