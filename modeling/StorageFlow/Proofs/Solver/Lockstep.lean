/-
# StorageFlow.Proofs.Solver.Lockstep — problems that a solver cannot tell apart.

A run looks at a problem in two places only: it applies the transfer function at nodes that can be reached, and it
passes the result on to successors.  Two problems that agree in both are in lock-step, which is stronger than having
the same solution: after any number of steps the two runs are in the very same state, with the same nodes pending in
the same order and the same counters, or have failed in the same way.

Edges that are recorded twice are such a difference.  Once facts have been passed on to a successor, passing them on
again merges nothing new, and the successor has been scheduled; `HasServed` says so, and it stays so while the other
successors are served.  Therefore the repetitions may stand anywhere among the successors.
-/
import StorageFlow.Proofs.List.Distinct
import StorageFlow.Proofs.Solver.Fixpoint

namespace StorageFlow

universe u

variable {κ σ ε : Type u} [DecidableEq κ]

namespace Problem

variable [JoinLattice σ]

/-! ## Lock-step -/

/-- Two problems agree where a run looks at them. -/
structure InLockstep (p q : Problem κ σ ε) : Prop where
  entry : p.entry = q.entry
  transfer (node : κ) (facts : σ) : p.Reachable node → p.transfer node facts = q.transfer node facts
  passOn (node : κ) (out : σ) (s : State κ σ) : s.worklist.Consistent →
    (p.exits node).foldl (propagate out) s = (q.exits node).foldl (propagate out) s

variable {p q : Problem κ σ ε} {order : Order}

theorem InLockstep.start_eq (h : p.InLockstep q) (order : Order) : p.start order = q.start order := by
  rw [start, start, h.entry]

theorem InLockstep.visit_eq (h : p.InLockstep q) {node : κ} {s : State κ σ} (hnode : p.Reachable node)
    (hc : s.worklist.Consistent) : p.visit node s = q.visit node s := by
  unfold visit
  rw [h.transfer node _ hnode]
  refine congrArg (fun f => Except.map f _) (funext fun out => ?_)
  exact h.passOn node out _ hc

theorem InLockstep.step_eq (h : p.InLockstep q) {s : State κ σ} (hi : p.Invariant s) : p.step s = q.step s := by
  unfold step
  cases hpop : s.worklist.pop with
  | none => rfl
  | some taken =>
      obtain ⟨node, rest⟩ := taken
      have hnode : p.Reachable node := hi.reachable node (.inl (Worklist.mem_of_pop hpop))
      exact congrArg some (h.visit_eq hnode (Worklist.consistent_of_pop hi.consistent hpop))

variable [LawfulJoinLattice σ]

theorem InLockstep.run_eq_of_invariant (h : p.InLockstep q) (steps : Nat) {s : State κ σ} (hi : p.Invariant s) :
    p.run steps s = q.run steps s := by
  induction steps generalizing s with
  | zero => rfl
  | succ steps ih =>
      rw [run, run, ← h.step_eq hi]
      cases hstep : p.step s with
      | none => rfl
      | some next =>
          cases next with
          | error e => rfl
          | ok s' =>
              obtain ⟨node, out, ht⟩ := transition_of_step hi.consistent hstep
              exact ih (hi.step ht)

/-- **Lock-step**: after any number of steps the two runs are in the same state or have failed alike. -/
theorem InLockstep.run_eq (h : p.InLockstep q) (order : Order) (steps : Nat) :
    p.run steps (p.start order) = q.run steps (q.start order) := by
  rw [← h.start_eq order]
  exact h.run_eq_of_invariant steps (p.invariant_start order)

/-! ## Running longer than necessary -/

omit [LawfulJoinLattice σ] in
/-- A run that failed does not recover. -/
theorem run_of_run_eq_error {steps more : Nat} {s : State κ σ} {e : ε} (hrun : p.run steps s = .error e)
    (hmore : steps ≤ more) : p.run more s = .error e := by
  induction steps generalizing s more with
  | zero => exact absurd hrun (by simp [run])
  | succ steps ih =>
      obtain ⟨more, rfl⟩ : ∃ n, more = n + 1 := ⟨more - 1, by omega⟩
      rw [run] at hrun ⊢
      cases hstep : p.step s with
      | none =>
          rw [hstep] at hrun
          exact absurd hrun (by simp)
      | some next =>
          rw [hstep] at hrun
          cases next with
          | error e' => exact hrun
          | ok s' => exact ih hrun (by omega)

/-- Solving comes to the same as running at least as long as the step bound says. -/
theorem solve_eq_run [Fintype κ] {within : κ → σ → Prop} (hb : p.Bounded within) {steps : Nat}
    (hsteps : p.stepBound ≤ steps) : p.solve order = (p.run steps (p.start order)).map State.solution := by
  have hends := ends_run hb order (Nat.le_refl p.stepBound)
  rw [solve]
  cases hrun : p.run p.stepBound (p.start order) with
  | error e => rw [run_of_run_eq_error hrun hsteps]
  | ok final =>
      rw [hrun] at hends
      rw [run_of_pending_eq_nil hrun hends hsteps]

/-- Problems in lock-step have the same solution, also if their step bounds differ. -/
theorem InLockstep.solve_eq [Fintype κ] {within within' : κ → σ → Prop} (h : p.InLockstep q)
    (hp : p.Bounded within) (hq : q.Bounded within') (order : Order) : p.solve order = q.solve order := by
  rw [solve_eq_run hp (Nat.le_max_left p.stepBound q.stepBound),
    solve_eq_run hq (Nat.le_max_right p.stepBound q.stepBound), h.run_eq order]

/-! ## Edges that are recorded more than once -/

/-- Facts have been passed on to a node: they have arrived, and the node is scheduled or was processed. -/
structure State.HasServed (s : State κ σ) (out : σ) (m : κ) : Prop where
  arrived : ∃ facts, s.solution.incoming.get? m = some facts ∧ leq out facts = true
  isKnown : s.IsKnown m

variable {out : σ} {s : State κ σ} {m k : κ}

theorem incoming_propagate (out : σ) (s : State κ σ) (m : κ) :
    (propagate out s m).solution.incoming =
      s.solution.incoming.set m (join (s.solution.inState m) out) := by
  unfold propagate
  dsimp only
  rw [LawfulJoinLattice.joinInto_fst]
  split <;> rfl

/-- What has been passed on to a node is not passed on to it again. -/
theorem propagate_of_hasServed (hc : s.worklist.Consistent) (h : s.HasServed out m) : propagate out s m = s := by
  obtain ⟨⟨facts, hget, hle⟩, hknown⟩ := h
  have hfacts : s.solution.inState m = facts := by rw [Solution.inState, hget, Option.getD_some]
  have hold : leq out (s.solution.inState m) = true := hfacts ▸ hle
  have hworklist : (propagate out s m).worklist = s.worklist := by
    rw [worklist_propagate]
    split
    · next hdue =>
      have hunvisited : s.solution.isVisited m = false := hdue.resolve_left (by simp [hold])
      exact Worklist.push_of_mem_pending hc (hknown.resolve_right (by simp [hunvisited]))
    · rfl
  have hincoming : (propagate out s m).solution.incoming = s.solution.incoming := by
    rw [incoming_propagate, LawfulJoinLattice.join_eq_left hold, hfacts, Table.set_eq_self hget]
  -- Nothing grew, so the counters stay as well.
  have hsolution : (propagate out s m).solution =
      { s.solution with incoming := (propagate out s m).solution.incoming } := by
    unfold propagate
    dsimp only
    rw [LawfulJoinLattice.joinInto_snd, hold]
    rfl
  rw [hincoming] at hsolution
  calc propagate out s m
      = ⟨(propagate out s m).worklist, (propagate out s m).solution⟩ := rfl
    _ = s := by rw [hworklist, hsolution]

theorem hasServed_propagate (hc : s.worklist.Consistent) : (propagate out s m).HasServed out m := by
  constructor
  · refine ⟨join (s.solution.inState m) out, ?_, LawfulJoinLattice.leq_join_right _ _⟩
    rw [incoming_propagate, Table.get?_set, if_pos rfl]
  · rw [isKnown_propagate hc]
    by_cases hdue : s.IsDue out m
    · exact .inr ⟨rfl, hdue⟩
    · refine .inl (.inr ?_)
      rw [State.IsDue, not_or, Bool.not_eq_false] at hdue
      simpa using hdue.2

theorem State.HasServed.propagate (h : s.HasServed out m) (hc : s.worklist.Consistent) (k : κ) :
    (Problem.propagate out s k).HasServed out m := by
  by_cases e : k = m
  · exact e ▸ hasServed_propagate hc
  · constructor
    · rw [incoming_propagate, Table.get?_set, if_neg e]
      exact h.arrived
    · exact (isKnown_propagate hc).2 (.inl h.isKnown)

theorem State.HasServed.foldl_propagate (h : s.HasServed out m) (hc : s.worklist.Consistent) (ms : List κ) :
    (ms.foldl (Problem.propagate out) s).HasServed out m := by
  induction ms generalizing s with
  | nil => exact h
  | cons k ms ih => exact ih (h.propagate hc k) (consistent_propagate hc)

theorem hasServed_foldl_propagate {ms : List κ} (hm : m ∈ ms) (hc : s.worklist.Consistent) :
    (ms.foldl (propagate out) s).HasServed out m := by
  induction ms generalizing s with
  | nil => exact absurd hm List.not_mem_nil
  | cons k ms ih =>
      rcases List.mem_cons.1 hm with rfl | hm
      · exact (hasServed_propagate hc).foldl_propagate (consistent_propagate hc) ms
      · exact ih hm (consistent_propagate hc)

/-- **Serving a successor again changes nothing**, wherever it comes up again among the successors. -/
theorem foldl_propagate_eraseDups (ms : List κ) (hc : s.worklist.Consistent) :
    ms.foldl (propagate out) s = ms.eraseDups.foldl (propagate out) s := by
  induction ms using List.reverseRecOn with
  | nil => rfl
  | append_singleton ms m ih =>
      rw [List.foldl_append, List.foldl_cons, List.foldl_nil]
      by_cases hm : m ∈ ms
      · rw [eraseDups_snoc_of_mem hm, ← ih]
        exact propagate_of_hasServed (consistent_foldl_propagate ms hc) (hasServed_foldl_propagate hm hc)
      · rw [eraseDups_snoc_of_notMem hm, List.foldl_append, ← ih]
        rfl

/-- A problem is in lock-step with the one that has every edge once. -/
theorem inLockstep_of_eraseDups (hentry : p.entry = q.entry)
    (htransfer : ∀ node facts, p.transfer node facts = q.transfer node facts)
    (hexits : ∀ node, q.exits node = (p.exits node).eraseDups) : p.InLockstep q where
  entry := hentry
  transfer node facts _ := htransfer node facts
  passOn node out s hc := by rw [hexits, foldl_propagate_eraseDups _ hc]

end Problem

end StorageFlow
