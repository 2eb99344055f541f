/-
# StorageFlow.Proofs.Solver.Fixpoint — what the solver has found when it stops.

When nothing is pending any more, the invariant leaves only one reading: the processed nodes are the
reachable ones, every recorded result is that of the final incoming facts, and every result has arrived at
all successors.  `Solved` says so, for transfer functions that need not be monotone.

`exists_solved` puts this together with termination: if the transfer function never fails on facts that a run
can find, then there is one final state in which every long enough run ends, and it is solved.
-/
import StorageFlow.Proofs.Solver.Termination

namespace StorageFlow.Problem

universe u

variable {κ σ ε : Type u} [DecidableEq κ] [JoinLattice σ]

/-- The facts of a solution agree with each other and with the transfer function. -/
structure Solved (p : Problem κ σ ε) (s : Solution κ σ) : Prop where
  -- The processed nodes are the reachable ones.
  isVisited_iff (k : κ) : s.isVisited k = true ↔ p.Reachable k
  -- The facts after a node are those that follow from the facts before it.
  transferred {k : κ} : p.Reachable k → p.transfer k (s.inState k) = .ok (s.outState k)
  -- The facts after a node have arrived at its successors.
  passedOn {k m : κ} : p.Reachable k → m ∈ p.exits k → leq (s.outState k) (s.inState m) = true
  -- Nothing has arrived at a node that cannot be reached.
  inState_eq_bottom {k : κ} : ¬ p.Reachable k → s.inState k = bottom
  -- Nothing is known after a node that cannot be reached.
  outState_eq_bottom {k : κ} : ¬ p.Reachable k → s.outState k = bottom

omit [JoinLattice σ] in
/-- Without pending nodes, the known nodes are the processed ones. -/
theorem isKnown_iff_isVisited {s : State κ σ} {k : κ} (hfinal : s.worklist.pending = []) :
    s.IsKnown k ↔ s.solution.isVisited k = true := by
  rw [State.IsKnown, hfinal]
  exact or_iff_right List.not_mem_nil

/-- Scheduling does not stop before it has come to every reachable node. -/
theorem Invariant.isVisited_iff {p : Problem κ σ ε} {s : State κ σ} (hi : p.Invariant s)
    (hfinal : s.worklist.pending = []) {k : κ} : s.solution.isVisited k = true ↔ p.Reachable k := by
  constructor
  · intro hk
    exact hi.reachable k ((isKnown_iff_isVisited hfinal).2 hk)
  · intro hk
    induction hk with
    | refl => exact (isKnown_iff_isVisited hfinal).1 hi.entry
    | tail _ hm ih => exact (isKnown_iff_isVisited hfinal).1 (hi.scheduled _ _ ih hm)

/-- **When nothing is pending, the problem is solved.** -/
theorem Invariant.solved {p : Problem κ σ ε} {s : State κ σ} (hi : p.Invariant s)
    (hfinal : s.worklist.pending = []) : p.Solved s.solution := by
  have hrecorded {k : κ} (hk : p.Reachable k) :
      s.solution.outgoing.get? k = some (s.solution.outState k) := by
    obtain ⟨out, hout⟩ := exists_get?_of_isVisited ((hi.isVisited_iff hfinal).2 hk)
    rw [Solution.outState, hout, Option.getD_some]
  have huntouched {k : κ} (hk : ¬ p.Reachable k) : s.solution.inState k = bottom := by
    refine hi.untouched k fun hknown => hk ?_
    exact hi.reachable k hknown
  constructor
  · intro k
    exact hi.isVisited_iff hfinal
  · intro k hk
    exact hi.settled k _ (hrecorded hk) (hfinal ▸ List.not_mem_nil)
  · intro k m hk hm
    exact hi.passedOn k m _ (hrecorded hk) hm
  · intro k hk
    exact huntouched hk
  · intro k hk
    have hnone : s.solution.outgoing.get? k = none := by
      rw [← Option.not_isSome_iff_eq_none]
      intro hsome
      exact hk ((hi.isVisited_iff hfinal).1 hsome)
    rw [Solution.outState, hnone, Option.getD_none]
    exact huntouched hk

variable [Fintype κ] [LawfulJoinLattice σ]

/-- **Every long enough run ends in the same solved state.** -/
theorem exists_solved {p : Problem κ σ ε} {within : κ → σ → Prop} (hb : p.Bounded within)
    (htotal : ∀ k a, p.Reachable k → within k a → ∃ out, p.transfer k a = .ok out) (order : Order) :
    ∃ final, (∀ steps, p.stepBound ≤ steps → p.run steps (p.start order) = .ok final) ∧
      final.worklist.pending = [] ∧ p.Solved final.solution := by
  have hends := ends_run hb order (Nat.le_refl p.stepBound)
  cases hrun : p.run p.stepBound (p.start order) with
  | error e =>
      rw [hrun] at hends
      obtain ⟨k, a, hk, ha, hfails⟩ := hends
      obtain ⟨out, hout⟩ := htotal k a hk ha
      rw [hout] at hfails
      exact absurd hfails (by simp)
  | ok final =>
      rw [hrun] at hends
      refine ⟨final, ?_, hends, (invariant_of_run hrun).solved hends⟩
      intro steps hsteps
      exact run_of_pending_eq_nil hrun hends hsteps

omit [Fintype κ] [LawfulJoinLattice σ] in
/-- Solving answers what is known at the end of the run. -/
theorem solve_of_run {p : Problem κ σ ε} {order : Order} {final : State κ σ}
    (hrun : ∀ steps, p.stepBound ≤ steps → p.run steps (p.start order) = .ok final) :
    p.solve order = .ok final.solution := by
  rw [solve, hrun p.stepBound (Nat.le_refl _)]
  rfl

end StorageFlow.Problem
