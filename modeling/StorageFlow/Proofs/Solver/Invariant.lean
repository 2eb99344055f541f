/-
# StorageFlow.Proofs.Solver.Invariant — what holds between any two steps of the solver.

`Invariant` ties the four things that a solver holds together: which nodes are pending, which have been
processed, and the facts before and after them.  A processed node may be pending again, and then its recorded
result is out of date; but the result has been passed on to all successors, and a node that is not pending is
up to date.  A node that is neither pending nor processed has not been touched.

Every step keeps the invariant, whatever the transfer function is.  What else a run keeps depends on the
problem: `Preserves` is what a property of incoming facts has to satisfy to hold of all facts a run can find,
and `preserved_of_run` is the induction over runs that this pays for.
-/
import Mathlib.Logic.Relation
import StorageFlow.Proofs.Solver.Transition

namespace StorageFlow.Problem

universe u

variable {κ σ ε : Type u}

/-- A node is reachable if some path leads to it from the entry. -/
def Reachable (p : Problem κ σ ε) (node : κ) : Prop :=
  Relation.ReflTransGen (fun k m => m ∈ p.exits k) p.entry node

theorem reachable_entry (p : Problem κ σ ε) : p.Reachable p.entry := Relation.ReflTransGen.refl

theorem Reachable.step {p : Problem κ σ ε} {k m : κ} (hk : p.Reachable k) (hm : m ∈ p.exits k) :
    p.Reachable m :=
  Relation.ReflTransGen.tail hk hm

variable [DecidableEq κ]

/-- A node is known once it was scheduled for the first time. -/
def State.IsKnown (s : State κ σ) (node : κ) : Prop :=
  node ∈ s.worklist.pending ∨ s.solution.isVisited node = true

instance (s : State κ σ) (node : κ) : Decidable (s.IsKnown node) :=
  inferInstanceAs (Decidable (_ ∨ _))

theorem exists_get?_of_isVisited {s : Solution κ σ} {k : κ} (h : s.isVisited k = true) :
    ∃ out, s.outgoing.get? k = some out :=
  Option.isSome_iff_exists.1 h

variable [JoinLattice σ]

/-! ## The views of a transition -/

namespace Transition

variable {p : Problem κ σ ε} {s s' : State κ σ} {node k : κ} {out : σ}

theorem isVisited_iff (ht : p.Transition s s' node out) :
    s'.solution.isVisited k = true ↔ node = k ∨ s.solution.isVisited k = true := by
  rw [Solution.isVisited, Table.contains, ht.outgoing]
  by_cases e : node = k
  · simp [e]
  · rw [if_neg e]
    exact ⟨Or.inr, fun h => h.resolve_left e⟩

/-- The successors of the processed node become known, and nothing that was known is forgotten. -/
theorem isKnown_iff (ht : p.Transition s s' node out) :
    s'.IsKnown k ↔ s.IsKnown k ∨ k ∈ p.exits node := by
  have hwas := ht.wasPending
  unfold State.IsKnown
  rw [ht.mem_pending, ht.isVisited_iff]
  by_cases e : node = k
  · subst e
    tauto
  · have e' : k ≠ node := Ne.symm e
    cases hv : s.solution.isVisited k <;> tauto

variable [LawfulJoinLattice σ]

/-- Incoming facts only grow. -/
theorem leq_inState (ht : p.Transition s s' node out) :
    leq (s.solution.inState k) (s'.solution.inState k) = true := by
  rw [ht.inState]
  split
  · exact LawfulJoinLattice.leq_join_left _ _
  · exact LawfulJoinLattice.leq_refl _

/-- A node that is not pending after the step has the facts that it had before. -/
theorem inState_of_not_pending (ht : p.Transition s s' node out) (hk : k ∉ s'.worklist.pending) :
    s'.solution.inState k = s.solution.inState k := by
  rw [ht.inState]
  split
  · next hexit =>
    have hold : leq out (s.solution.inState k) = true := by
      by_contra hnew
      exact hk ((ht.mem_pending k).2 (.inr ⟨hexit, .inl (Bool.eq_false_iff.2 hnew)⟩))
    exact LawfulJoinLattice.join_eq_left hold
  · rfl

end Transition

/-! ## The invariant -/

/-- What holds between any two steps. -/
structure Invariant (p : Problem κ σ ε) (s : State κ σ) : Prop where
  -- The list and the set of pending nodes agree.
  consistent : s.worklist.Consistent
  -- The entry has been scheduled.
  entry : s.IsKnown p.entry
  -- Only reachable nodes have been scheduled.
  reachable (k : κ) : s.IsKnown k → p.Reachable k
  -- The successors of processed nodes have been scheduled.
  scheduled (k m : κ) : s.solution.isVisited k = true → m ∈ p.exits k → s.IsKnown m
  -- The result of a node that is not pending is up to date.
  settled (k : κ) (out : σ) : s.solution.outgoing.get? k = some out → k ∉ s.worklist.pending →
    p.transfer k (s.solution.inState k) = .ok out
  -- Every result has been passed on, also one that is out of date.
  passedOn (k m : κ) (out : σ) : s.solution.outgoing.get? k = some out → m ∈ p.exits k →
    leq out (s.solution.inState m) = true
  -- Nothing has arrived at a node that was not scheduled.
  untouched (k : κ) : ¬ s.IsKnown k → s.solution.inState k = bottom

/-- Before the first step the entry is pending and nothing is known. -/
theorem invariant_start (p : Problem κ σ ε) (order : Order) : p.Invariant (p.start order) := by
  have hpending (k : κ) : k ∈ (p.start order).worklist.pending ↔ k = p.entry := by
    show k ∈ ((Worklist.empty order).push p.entry).pending ↔ _
    rw [Worklist.mem_pending_push (Worklist.consistent_empty order)]
    simp [Worklist.empty]
  have hnone (k : κ) : (p.start order).solution.outgoing.get? k = none := Table.get?_empty k
  have hfresh (k : κ) : ¬ (p.start order).solution.isVisited k = true := by
    intro hk
    obtain ⟨out, hout⟩ := exists_get?_of_isVisited hk
    exact absurd (hout.symm.trans (hnone k)) (by simp)
  have hknown (k : κ) : (p.start order).IsKnown k ↔ k = p.entry := by
    rw [State.IsKnown, hpending]
    exact or_iff_left (hfresh k)
  constructor
  · exact Worklist.consistent_push (Worklist.consistent_empty order) p.entry
  · exact (hknown _).2 rfl
  · intro k hk
    rw [(hknown k).1 hk]
    exact p.reachable_entry
  · intro k m hk
    exact absurd hk (hfresh k)
  · intro k out hout
    exact absurd (hout.symm.trans (hnone k)) (by simp)
  · intro k m out hout
    exact absurd (hout.symm.trans (hnone k)) (by simp)
  · intro k _
    rfl

/-- **Every step keeps the invariant.** -/
theorem Invariant.step [LawfulJoinLattice σ] {p : Problem κ σ ε} {s s' : State κ σ} {node : κ} {out : σ}
    (hi : p.Invariant s) (ht : p.Transition s s' node out) : p.Invariant s' := by
  have hnode : p.Reachable node := hi.reachable node (.inl ht.wasPending)
  constructor
  · exact ht.consistent
  · exact ht.isKnown_iff.2 (.inl hi.entry)
  · intro k hk
    rcases ht.isKnown_iff.1 hk with hk | hk
    · exact hi.reachable k hk
    · exact hnode.step hk
  · intro k m hk hm
    rw [ht.isKnown_iff]
    rcases ht.isVisited_iff.1 hk with rfl | hk
    · exact .inr hm
    · exact .inl (hi.scheduled k m hk hm)
  · intro k result hget hk
    rw [ht.outgoing] at hget
    rw [ht.inState_of_not_pending hk]
    split at hget
    · next e =>
      rw [← Option.some.inj hget, ← e]
      exact ht.transferred
    · next e =>
      refine hi.settled k result hget fun hp => hk ?_
      exact (ht.mem_pending k).2 (.inl ⟨hp, Ne.symm e⟩)
  · intro k m result hget hm
    rw [ht.outgoing] at hget
    split at hget
    · next e =>
      rw [ht.inState, if_pos (e ▸ hm), ← Option.some.inj hget]
      exact LawfulJoinLattice.leq_join_right _ _
    · exact LawfulJoinLattice.leq_trans (hi.passedOn k m result hget hm) ht.leq_inState
  · intro k hk
    rw [ht.isKnown_iff, not_or] at hk
    rw [ht.inState, if_neg hk.2]
    exact hi.untouched k hk.1

/-! ## Runs -/

/-- What every step keeps, a run keeps. -/
theorem run_induction {p : Problem κ σ ε} {P : State κ σ → Prop}
    (hstep : ∀ s s', P s → p.step s = some (.ok s') → P s') {steps : Nat} {s final : State κ σ}
    (hs : P s) (hrun : p.run steps s = .ok final) : P final := by
  induction steps generalizing s with
  | zero =>
      obtain rfl : s = final := Except.ok.inj hrun
      exact hs
  | succ steps ih =>
      rw [run] at hrun
      split at hrun
      · obtain rfl : s = final := Except.ok.inj hrun
        exact hs
      · next next hnext =>
        cases next with
        | error e => exact absurd hrun (by simp [Except.bind])
        | ok s' => exact ih (hstep s s' hs hnext) hrun

/-- A property of incoming facts that holds of the least ones and survives what a node passes on. -/
structure Preserves (p : Problem κ σ ε) (Q : κ → σ → Prop) : Prop where
  bottom (k : κ) : Q k bottom
  join {k m : κ} {a b out : σ} : p.Reachable k → Q k a → p.transfer k a = .ok out → m ∈ p.exits k →
    Q m b → Q m (join b out)

theorem Preserves.step {p : Problem κ σ ε} {Q : κ → σ → Prop} (hQ : p.Preserves Q) {s s' : State κ σ}
    {node : κ} {out : σ} (hi : p.Invariant s) (ht : p.Transition s s' node out)
    (hs : ∀ k, Q k (s.solution.inState k)) (k : κ) : Q k (s'.solution.inState k) := by
  rw [ht.inState]
  split
  · next hexit =>
    exact hQ.join (hi.reachable node (.inl ht.wasPending)) (hs node) ht.transferred hexit (hs k)
  · exact hs k

variable [LawfulJoinLattice σ]

/-- The state that a run ends in satisfies the invariant. -/
theorem invariant_of_run {p : Problem κ σ ε} {order : Order} {steps : Nat} {final : State κ σ}
    (hrun : p.run steps (p.start order) = .ok final) : p.Invariant final := by
  refine run_induction (P := p.Invariant) ?_ (p.invariant_start order) hrun
  intro s s' hi hstep
  obtain ⟨node, out, ht⟩ := transition_of_step hi.consistent hstep
  exact hi.step ht

/-- **Induction over runs.**  What is preserved holds of all incoming facts that a run finds. -/
theorem preserved_of_run {p : Problem κ σ ε} {Q : κ → σ → Prop} (hQ : p.Preserves Q) {order : Order}
    {steps : Nat} {final : State κ σ} (hrun : p.run steps (p.start order) = .ok final) (k : κ) :
    Q k (final.solution.inState k) := by
  have hboth : p.Invariant final ∧ ∀ k, Q k (final.solution.inState k) := by
    refine run_induction (P := fun s => p.Invariant s ∧ ∀ k, Q k (s.solution.inState k)) ?_
      ⟨p.invariant_start order, fun k => hQ.bottom k⟩ hrun
    rintro s s' ⟨hi, hs⟩ hstep
    obtain ⟨node, out, ht⟩ := transition_of_step hi.consistent hstep
    exact ⟨hi.step ht, hQ.step hi ht hs⟩
  exact hboth.2 k

end StorageFlow.Problem
