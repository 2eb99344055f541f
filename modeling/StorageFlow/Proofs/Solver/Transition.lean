/-
# StorageFlow.Proofs.Solver.Transition — everything that one step of the solver does.

A step takes a pending node, runs the transfer function, and passes the result on to the successors one by
one.  While it does so the same successor may come up twice, the node may be its own successor, and the
worklist changes under the loop.  None of that is visible afterwards: `Transition` describes the state after
a step by what was known before it, and `transition_of_step` says that every step that succeeds is one.
Whoever proves something about runs of the solver works with `Transition` and never opens a step again.
-/
import StorageFlow.Proofs.Lattice.Laws
import StorageFlow.Proofs.Worklist.Pending
import StorageFlow.Solver

namespace StorageFlow.Problem

universe u

variable {κ σ ε : Type u} [DecidableEq κ] [JoinLattice σ]

/-- A node to which facts are passed on has to be processed: they are new to it, or it never was processed. -/
def State.IsDue (s : State κ σ) (out : σ) (node : κ) : Prop :=
  leq out (s.solution.inState node) = false ∨ s.solution.isVisited node = false

instance (s : State κ σ) (out : σ) (node : κ) : Decidable (s.IsDue out node) :=
  inferInstanceAs (Decidable (_ ∨ _))

/-- The state after a node was processed with a result: the result is recorded, then passed on. -/
def afterVisit (p : Problem κ σ ε) (node : κ) (out : σ) (s : State κ σ) : State κ σ :=
  (p.exits node).foldl (propagate out)
    { s with solution := s.solution.countIteration.setOutState node out }

/-! ## Passing facts on to one successor -/

section Propagate

variable {out : σ} {s : State κ σ} {m k : κ}

@[simp] theorem outgoing_propagate (out : σ) (s : State κ σ) (m : κ) :
    (propagate out s m).solution.outgoing = s.solution.outgoing := by
  unfold propagate
  dsimp only
  split <;> rfl

@[simp] theorem isVisited_propagate (out : σ) (s : State κ σ) (m k : κ) :
    (propagate out s m).solution.isVisited k = s.solution.isVisited k := by
  rw [Solution.isVisited, outgoing_propagate, Solution.isVisited]

theorem outgoing_foldl_propagate (ms : List κ) (s : State κ σ) :
    (ms.foldl (propagate out) s).solution.outgoing = s.solution.outgoing := by
  induction ms generalizing s with
  | nil => rfl
  | cons m ms ih => rw [List.foldl_cons, ih, outgoing_propagate]

variable [LawfulJoinLattice σ]

theorem inState_propagate (out : σ) (s : State κ σ) (m k : κ) :
    (propagate out s m).solution.inState k =
      if m = k then join (s.solution.inState k) out else s.solution.inState k := by
  have hset : (propagate out s m).solution.inState k =
      (s.solution.setInState m (joinInto (s.solution.inState m) out).1).inState k := by
    unfold propagate
    dsimp only
    split <;> rfl
  rw [hset, Solution.inState_setInState, LawfulJoinLattice.joinInto_fst]
  split
  · next e => rw [e]
  · rfl

theorem worklist_propagate (out : σ) (s : State κ σ) (m : κ) :
    (propagate out s m).worklist = if s.IsDue out m then s.worklist.push m else s.worklist := by
  have hvisited (facts : σ) :
      (s.solution.setInState m facts).isVisited m = s.solution.isVisited m := rfl
  unfold propagate State.IsDue
  simp only [hvisited, LawfulJoinLattice.joinInto_snd, Bool.or_eq_true, Bool.not_eq_true']
  rfl

theorem consistent_propagate (h : s.worklist.Consistent) : (propagate out s m).worklist.Consistent := by
  rw [worklist_propagate]
  split
  · exact Worklist.consistent_push h m
  · exact h

theorem mem_pending_propagate (h : s.worklist.Consistent) :
    k ∈ (propagate out s m).worklist.pending ↔ k ∈ s.worklist.pending ∨ k = m ∧ s.IsDue out m := by
  rw [worklist_propagate]
  split
  · next hdue => rw [Worklist.mem_pending_push h, and_iff_left hdue]
  · next hdue => simp [hdue]

/-- Once facts have arrived at a node, they are not new to it any more. -/
theorem isDue_propagate :
    (propagate out s m).IsDue out k ↔
      (m ≠ k ∧ leq out (s.solution.inState k) = false) ∨ s.solution.isVisited k = false := by
  unfold State.IsDue
  rw [isVisited_propagate, inState_propagate]
  by_cases e : m = k
  · rw [if_pos e, LawfulJoinLattice.leq_join_right]
    simp [e]
  · rw [if_neg e]
    simp [e]

/-! ## Passing facts on to all successors -/

theorem consistent_foldl_propagate (ms : List κ) (h : s.worklist.Consistent) :
    (ms.foldl (propagate out) s).worklist.Consistent := by
  induction ms generalizing s with
  | nil => exact h
  | cons m ms ih => exact ih (consistent_propagate h)

/-- A successor that comes up twice receives the same facts twice, which is the same as once. -/
theorem inState_foldl_propagate (ms : List κ) (s : State κ σ) (k : κ) :
    (ms.foldl (propagate out) s).solution.inState k =
      if k ∈ ms then join (s.solution.inState k) out else s.solution.inState k := by
  induction ms generalizing s with
  | nil => simp
  | cons m ms ih =>
      rw [List.foldl_cons, ih, inState_propagate]
      by_cases e : m = k
      · have hagain : join (join (s.solution.inState k) out) out = join (s.solution.inState k) out :=
          LawfulJoinLattice.join_eq_left (LawfulJoinLattice.leq_join_right _ _)
        simp [e, hagain]
      · simp [e, Ne.symm e]

/-- Whether a successor becomes pending is decided by what was known before any of them was served. -/
theorem mem_pending_foldl_propagate (ms : List κ) (h : s.worklist.Consistent) (k : κ) :
    k ∈ (ms.foldl (propagate out) s).worklist.pending ↔
      k ∈ s.worklist.pending ∨ k ∈ ms ∧ s.IsDue out k := by
  induction ms generalizing s with
  | nil => simp
  | cons m ms ih =>
      rw [List.foldl_cons, ih (consistent_propagate h), mem_pending_propagate h, isDue_propagate,
        List.mem_cons]
      by_cases e : m = k
      · subst e
        unfold State.IsDue
        tauto
      · unfold State.IsDue
        have e' : k ≠ m := Ne.symm e
        tauto

end Propagate

/-! ## A whole step -/

/-- A step that processes a node with some result, seen from before. -/
structure Transition (p : Problem κ σ ε) (s s' : State κ σ) (node : κ) (out : σ) : Prop where
  -- The node was pending.
  wasPending : node ∈ s.worklist.pending
  -- The result is that of the transfer function for the facts known before the step.
  transferred : p.transfer node (s.solution.inState node) = .ok out
  -- The result is recorded for the node and for no other.
  outgoing (k : κ) :
    s'.solution.outgoing.get? k = if node = k then some out else s.solution.outgoing.get? k
  -- The result is joined into the facts of the successors and of no other node.
  inState (k : κ) : s'.solution.inState k =
    if k ∈ p.exits node then join (s.solution.inState k) out else s.solution.inState k
  -- The node stops being pending, unless it has to be processed again; so do successors with new facts
  -- and successors that never were processed.
  mem_pending (k : κ) : k ∈ s'.worklist.pending ↔
    (k ∈ s.worklist.pending ∧ k ≠ node) ∨ k ∈ p.exits node ∧
      (leq out (s.solution.inState k) = false ∨ node ≠ k ∧ s.solution.isVisited k = false)
  -- The list and the set of pending nodes still agree.
  consistent : s'.worklist.Consistent

theorem step_eq_none_iff {p : Problem κ σ ε} {s : State κ σ} :
    p.step s = none ↔ s.worklist.pending = [] := by
  rw [step, Option.map_eq_none_iff, Worklist.pop_eq_none_iff]

/-- Every step processes a node that is pending. -/
theorem exists_pop_of_step {p : Problem κ σ ε} {s : State κ σ} {next : Except ε (State κ σ)}
    (h : p.step s = some next) :
    ∃ node rest, s.worklist.pop = some (node, rest) ∧
      next = (p.transfer node (s.solution.inState node)).map fun out =>
        p.afterVisit node out { s with worklist := rest } := by
  obtain ⟨⟨node, rest⟩, hpop, hnext⟩ := Option.map_eq_some_iff.1 h
  exact ⟨node, rest, hpop, hnext.symm⟩

/-- A step fails only because the transfer function does, at a pending node. -/
theorem exists_transfer_of_step_error {p : Problem κ σ ε} {s : State κ σ} {e : ε}
    (h : p.step s = some (.error e)) :
    ∃ node ∈ s.worklist.pending, p.transfer node (s.solution.inState node) = .error e := by
  obtain ⟨node, rest, hpop, hnext⟩ := exists_pop_of_step h
  refine ⟨node, Worklist.mem_of_pop hpop, ?_⟩
  cases htransfer : p.transfer node (s.solution.inState node) with
  | error e' =>
      rw [htransfer] at hnext
      rw [Except.error.inj hnext]
  | ok out =>
      rw [htransfer] at hnext
      exact absurd hnext (by simp [Except.map])

/-- Where the transfer function never fails, no run does. -/
theorem exists_run_of_total {p : Problem κ σ ε} (htotal : ∀ node facts, ∃ out, p.transfer node facts = .ok out)
    (steps : Nat) (s : State κ σ) : ∃ final, p.run steps s = .ok final := by
  induction steps generalizing s with
  | zero => exact ⟨s, rfl⟩
  | succ steps ih =>
      rw [run]
      cases hstep : p.step s with
      | none => exact ⟨s, rfl⟩
      | some next =>
          cases next with
          | ok s' => exact ih s'
          | error e =>
              obtain ⟨node, -, hfails⟩ := exists_transfer_of_step_error hstep
              obtain ⟨out, hout⟩ := htotal node (s.solution.inState node)
              rw [hout] at hfails
              exact absurd hfails (by simp)

/-- A step that succeeds is the visit of the node that it takes. -/
theorem exists_visit_of_step_ok {p : Problem κ σ ε} {s s' : State κ σ}
    (h : p.step s = some (.ok s')) :
    ∃ node rest out, s.worklist.pop = some (node, rest) ∧
      p.transfer node (s.solution.inState node) = .ok out ∧
      s' = p.afterVisit node out { s with worklist := rest } := by
  obtain ⟨node, rest, hpop, hnext⟩ := exists_pop_of_step h
  cases htransfer : p.transfer node (s.solution.inState node) with
  | error e =>
      rw [htransfer] at hnext
      exact absurd hnext (by simp [Except.map])
  | ok out =>
      rw [htransfer] at hnext
      exact ⟨node, rest, out, hpop, htransfer, Except.ok.inj hnext⟩

variable [LawfulJoinLattice σ]

/-- **Every step that succeeds is a transition.** -/
theorem transition_of_step {p : Problem κ σ ε} {s s' : State κ σ} (hc : s.worklist.Consistent)
    (h : p.step s = some (.ok s')) : ∃ node out, p.Transition s s' node out := by
  obtain ⟨node, rest, out, hpop, htransfer, rfl⟩ := exists_visit_of_step_ok h
  have hrest : rest.Consistent := Worklist.consistent_of_pop hc hpop
  refine ⟨node, out, Worklist.mem_of_pop hpop, htransfer, ?_, ?_, ?_, ?_⟩
  · intro k
    rw [afterVisit, outgoing_foldl_propagate]
    exact Table.get?_set _ node k out
  · intro k
    rw [afterVisit, inState_foldl_propagate]
    rfl
  · intro k
    rw [afterVisit, mem_pending_foldl_propagate _ hrest, Worklist.mem_pending_of_pop hc hpop,
      State.IsDue, Solution.isVisited_setOutState, Bool.or_eq_false_iff, decide_eq_false_iff_not]
    rfl
  · exact consistent_foldl_propagate _ hrest

end StorageFlow.Problem
