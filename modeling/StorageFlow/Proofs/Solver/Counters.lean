/-
# StorageFlow.Proofs.Solver.Counters — what the counters of a solver say.

A run counts the nodes that it processes and the merges that extend the facts of a node.  Every processing is paid
for once: a node becomes pending because facts arrive that are new to it, and that is a growth event, or because it
is scheduled for the first time, and that happens once to every node that is visited.  Pushing a node that is pending
already costs nothing, which is why the bound is not an equation.  Every growth event in turn makes the facts of one
node larger for good.

`Accounted` is this account in the middle of a run, where some nodes are outstanding.  Passing facts on to one
successor keeps it, so it does not matter how often a successor comes up or whether a node is its own successor.
-/
import StorageFlow.Proofs.Solver.Fixpoint

namespace StorageFlow

universe u

variable {κ σ ε : Type u} [DecidableEq κ] [Fintype κ]

namespace Solution

/-- The nodes that were processed. -/
def visited (s : Solution κ σ) : Finset κ := Finset.univ.filter fun k => s.isVisited k = true

theorem mem_visited {s : Solution κ σ} {k : κ} : k ∈ s.visited ↔ s.isVisited k = true := by
  simp [visited]

/-- The size of the incoming facts of all nodes together. -/
def totalSize [JoinLattice σ] (s : Solution κ σ) : Nat := ∑ k, JoinLattice.size (s.inState k)

end Solution

namespace Problem

variable [JoinLattice σ]

/-- The counters of a solution agree with what was visited and found. -/
structure Counted (p : Problem κ σ ε) (s : Solution κ σ) : Prop where
  -- The visited nodes are the reachable ones.
  mem_visited_iff (k : κ) : k ∈ s.visited ↔ p.Reachable k
  -- Every visited node was processed at least once.
  visited_le : s.visited.card ≤ s.iterations
  -- It was processed once, and once more at most for each merge that extended facts.
  iterations_le : s.iterations ≤ s.visited.card + s.growthEvents
  -- Each of these merges made the facts of some node larger.
  growthEvents_le : s.growthEvents ≤ ∑ k, JoinLattice.size (s.inState k)

/-- Whatever a run does next, the incoming facts of no node shrink. -/
def OnlyGrows (p : Problem κ σ ε) (order : Order) : Prop :=
  ∀ steps s s', p.run steps (p.start order) = .ok s → p.step s = some (.ok s') →
    ∀ k, leq (s.solution.inState k) (s'.solution.inState k) = true

/-- The account in the middle of a run.  What is outstanding has been paid for and not been processed yet. -/
structure State.Accounted (s : State κ σ) : Prop where
  visited_le : s.solution.visited.card ≤ s.solution.iterations
  paid : s.solution.iterations + s.outstanding ≤ Fintype.card κ + s.solution.growthEvents
  growthEvents_le : s.solution.growthEvents ≤ s.solution.totalSize

/-! ## Passing facts on -/

section Propagate

variable {out : σ} {s : State κ σ} {m : κ}

omit [Fintype κ] in
@[simp] theorem iterations_propagate (out : σ) (s : State κ σ) (m : κ) :
    (propagate out s m).solution.iterations = s.solution.iterations := by
  unfold propagate
  dsimp only
  split <;> rfl

@[simp] theorem visited_propagate (out : σ) (s : State κ σ) (m : κ) :
    (propagate out s m).solution.visited = s.solution.visited := by
  simp only [Solution.visited, isVisited_propagate]

variable [LawfulJoinLattice σ]

omit [Fintype κ] in
/-- What is new to a successor is counted, and nothing else. -/
theorem growthEvents_propagate (out : σ) (s : State κ σ) (m : κ) :
    (propagate out s m).solution.growthEvents =
      s.solution.growthEvents + if leq out (s.solution.inState m) = true then 0 else 1 := by
  unfold propagate
  dsimp only
  rw [LawfulJoinLattice.joinInto_snd]
  cases leq out (s.solution.inState m) <;> rfl

/-- What is counted made the facts of the successor larger. -/
theorem totalSize_propagate_ge (out : σ) (s : State κ σ) (m : κ) :
    (s.solution.totalSize + if leq out (s.solution.inState m) = true then 0 else 1) ≤
      (propagate out s m).solution.totalSize := by
  split
  · exact Finset.sum_le_sum fun k _ => size_inState_propagate_le out s m k
  · next hnew =>
    refine Finset.sum_lt_sum (fun k _ => size_inState_propagate_le out s m k) ⟨m, Finset.mem_univ m, ?_⟩
    rw [inState_propagate, if_pos rfl]
    exact LawfulJoinLattice.size_lt_join (Bool.eq_false_iff.2 hnew)

theorem State.Accounted.propagate (h : s.Accounted) (hc : s.worklist.Consistent) :
    (Problem.propagate out s m).Accounted := by
  have hpaid := h.paid
  have houtstanding := outstanding_propagate_le out m hc
  have hgrowth := h.growthEvents_le
  have hsize := totalSize_propagate_ge out s m
  constructor
  · rw [visited_propagate, iterations_propagate]
    exact h.visited_le
  · rw [iterations_propagate, growthEvents_propagate]
    omega
  · rw [growthEvents_propagate]
    omega

theorem State.Accounted.foldl_propagate (ms : List κ) (h : s.Accounted) (hc : s.worklist.Consistent) :
    (ms.foldl (Problem.propagate out) s).Accounted := by
  induction ms generalizing s with
  | nil => exact h
  | cons m ms ih => exact ih (h.propagate hc) (consistent_propagate hc)

end Propagate

/-! ## Runs -/

omit [JoinLattice σ] in
theorem visited_setOutState_subset (s : Solution κ σ) (node : κ) (out : σ) :
    (s.setOutState node out).visited ⊆ insert node s.visited := by
  intro k hk
  rw [Solution.mem_visited, Solution.isVisited_setOutState, Bool.or_eq_true, decide_eq_true_iff] at hk
  exact Finset.mem_insert.2 (hk.imp Eq.symm Solution.mem_visited.2)

/-- Processing a node uses up that it was outstanding. -/
theorem State.Accounted.record {s : State κ σ} {node : κ} {rest : Worklist κ} (h : s.Accounted)
    (hc : s.worklist.Consistent) (hpop : s.worklist.pop = some (node, rest)) (out : σ) :
    State.Accounted ⟨rest, s.solution.countIteration.setOutState node out⟩ := by
  constructor
  · calc (s.solution.countIteration.setOutState node out).visited.card
        ≤ (insert node s.solution.visited).card := Finset.card_le_card (visited_setOutState_subset _ node out)
      _ ≤ s.solution.visited.card + 1 := Finset.card_insert_le _ _
      _ ≤ s.solution.iterations + 1 := Nat.add_le_add_right h.visited_le 1
  · have hpaid := h.paid
    have houtstanding := outstanding_record_lt out hc hpop
    show s.solution.iterations + 1 + _ ≤ Fintype.card κ + s.solution.growthEvents
    omega
  · exact h.growthEvents_le

/-- Before the first step every node is allowed for, and nothing has been done. -/
theorem accounted_start (p : Problem κ σ ε) (order : Order) : (p.start order).Accounted := by
  constructor
  · have hnone : (p.start order).solution.visited = ∅ := by
      refine Finset.eq_empty_of_forall_notMem fun k hk => ?_
      obtain ⟨out, hout⟩ := exists_get?_of_isVisited (Solution.mem_visited.1 hk)
      exact absurd (hout.symm.trans (Table.get?_empty k)) (by simp)
    rw [hnone]
    exact Nat.zero_le _
  · have houtstanding := outstanding_start_le p order
    show 0 + _ ≤ Fintype.card κ + 0
    omega
  · exact Nat.zero_le _

omit [JoinLattice σ] in
/-- Without pending nodes, what is outstanding is what was not visited. -/
theorem visited_add_outstanding {s : State κ σ} (hfinal : s.worklist.pending = []) :
    s.solution.visited.card + s.outstanding = Fintype.card κ := by
  have hfresh : s.fresh = s.solution.visitedᶜ := by
    ext k
    rw [State.mem_fresh, isKnown_iff_isVisited hfinal, Finset.mem_compl, Solution.mem_visited]
  rw [State.outstanding, hfinal, hfresh, List.length_nil, Nat.zero_add, Finset.card_add_card_compl]

variable [LawfulJoinLattice σ] {p : Problem κ σ ε} {order : Order} {steps : Nat}

/-- **Every step keeps the account.** -/
theorem State.Accounted.step {s s' : State κ σ} (h : s.Accounted) (hc : s.worklist.Consistent)
    (hstep : p.step s = some (.ok s')) : s'.Accounted := by
  obtain ⟨node, rest, out, hpop, -, rfl⟩ := exists_visit_of_step_ok hstep
  exact (h.record hc hpop out).foldl_propagate (p.exits node) (Worklist.consistent_of_pop hc hpop)

theorem accounted_of_run {final : State κ σ} (hrun : p.run steps (p.start order) = .ok final) :
    final.Accounted := by
  have hboth : final.worklist.Consistent ∧ final.Accounted := by
    refine run_induction (P := fun s => s.worklist.Consistent ∧ s.Accounted) ?_ ?_ hrun
    · rintro s s' ⟨hc, h⟩ hstep
      obtain ⟨node, out, ht⟩ := transition_of_step hc hstep
      exact ⟨ht.consistent, h.step hc hstep⟩
    · exact ⟨(p.invariant_start order).consistent, p.accounted_start order⟩
  exact hboth.2

/-- **When nothing is pending, the account is settled.** -/
theorem counted_of_run {final : State κ σ} (hrun : p.run steps (p.start order) = .ok final)
    (hfinal : final.worklist.pending = []) : p.Counted final.solution := by
  have h : final.Accounted := accounted_of_run hrun
  constructor
  · intro k
    rw [Solution.mem_visited]
    exact (invariant_of_run hrun).isVisited_iff hfinal
  · exact h.visited_le
  · have hpaid := h.paid
    have hvisited := visited_add_outstanding hfinal
    omega
  · exact h.growthEvents_le

/-- **Solving ends with counters that agree with what was found.** -/
theorem exists_counted {within : κ → σ → Prop} (hb : p.Bounded within)
    (htotal : ∀ k a, p.Reachable k → within k a → ∃ out, p.transfer k a = .ok out) (order : Order) :
    ∃ s, p.solve order = .ok s ∧ p.Counted s := by
  obtain ⟨final, hrun, hfinal, -⟩ := exists_solved hb htotal order
  exact ⟨final.solution, solve_of_run hrun, counted_of_run (hrun _ (Nat.le_refl _)) hfinal⟩

omit [Fintype κ] in
/-- **Incoming facts only grow.** -/
theorem onlyGrows (p : Problem κ σ ε) (order : Order) : p.OnlyGrows order := by
  intro steps s s' hrun hstep k
  obtain ⟨node, out, ht⟩ := transition_of_step (invariant_of_run hrun).consistent hstep
  exact ht.leq_inState

end Problem

end StorageFlow
