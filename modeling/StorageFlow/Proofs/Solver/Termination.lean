/-
# StorageFlow.Proofs.Solver.Termination — the solver stops, and no later than its step bound says.

The work that is left is measured by three numbers that add up: how many nodes are pending, how many nodes
have never been scheduled, and by how much the facts at all nodes can still grow.  Passing facts on to a
successor never increases the sum: a node that becomes pending pays for it either with growth of its facts or
by being scheduled for the first time.  Taking a node from the worklist decreases it.  Before the first step
the sum is exactly `stepBound`, so a run of that many steps ends because nothing is pending and not because
it was cut off.
-/
import Mathlib.Algebra.Order.BigOperators.Group.Finset
import Mathlib.Data.Fintype.Card
import StorageFlow.Proofs.Solver.Invariant

namespace StorageFlow.Problem

universe u

variable {κ σ ε : Type u} [DecidableEq κ] [Fintype κ] [JoinLattice σ]

/-- The problem promises what its step bound assumes: it has no more nodes than it says, and facts that
satisfy `within`, as all facts of a run do, are no larger than its height. -/
structure Bounded (p : Problem κ σ ε) (within : κ → σ → Prop) : Prop extends p.Preserves within where
  size_le {k : κ} {a : σ} : within k a → JoinLattice.size a ≤ p.height
  card_le : Fintype.card κ ≤ p.nodeCount

/-! ## The work that is left -/

/-- The nodes that have never been scheduled. -/
def State.fresh (s : State κ σ) : Finset κ := Finset.univ.filter fun k => ¬ s.IsKnown k

/-- How many nodes are pending or have never been scheduled. -/
def State.outstanding (s : State κ σ) : Nat := s.worklist.pending.length + s.fresh.card

/-- By how much the facts at all nodes can still grow. -/
def State.slack (height : Nat) (s : State κ σ) : Nat :=
  ∑ k, (height - JoinLattice.size (s.solution.inState k))

/-- The work that is left. -/
def State.potential (height : Nat) (s : State κ σ) : Nat :=
  s.worklist.pending.length + s.fresh.card + s.slack height

omit [JoinLattice σ] in
theorem State.mem_fresh {s : State κ σ} {k : κ} : k ∈ s.fresh ↔ ¬ s.IsKnown k := by
  simp [State.fresh]

section Propagate

variable [LawfulJoinLattice σ] {out : σ} {s : State κ σ} {m : κ} {height : Nat}

omit [Fintype κ] in
theorem isKnown_propagate (hc : s.worklist.Consistent) {k : κ} :
    (propagate out s m).IsKnown k ↔ s.IsKnown k ∨ k = m ∧ s.IsDue out m := by
  unfold State.IsKnown
  rw [isVisited_propagate, mem_pending_propagate hc]
  tauto

theorem fresh_propagate_subset (hc : s.worklist.Consistent) : (propagate out s m).fresh ⊆ s.fresh := by
  intro k hk
  rw [State.mem_fresh, isKnown_propagate hc] at hk
  exact State.mem_fresh.2 fun hknown => hk (.inl hknown)

/-- Scheduling a node for the first time uses it up. -/
theorem card_fresh_propagate_lt (hc : s.worklist.Consistent) (hdue : s.IsDue out m)
    (hm : ¬ s.IsKnown m) : (propagate out s m).fresh.card < s.fresh.card := by
  refine Finset.card_lt_card (Finset.ssubset_iff_subset_ne.2 ⟨fresh_propagate_subset hc, fun e => ?_⟩)
  have hfresh : m ∈ (propagate out s m).fresh := e ▸ State.mem_fresh.2 hm
  exact State.mem_fresh.1 hfresh ((isKnown_propagate hc).2 (.inr ⟨rfl, hdue⟩))

omit [DecidableEq κ] [Fintype κ] in
theorem size_le_join (a b : σ) : JoinLattice.size a ≤ JoinLattice.size (join a b) := by
  cases hnew : leq b a with
  | true => rw [LawfulJoinLattice.join_eq_left hnew]
  | false => exact Nat.le_of_lt (LawfulJoinLattice.size_lt_join hnew)

omit [Fintype κ] in
/-- Facts that are passed on make nothing smaller. -/
theorem size_inState_propagate_le (out : σ) (s : State κ σ) (m k : κ) :
    JoinLattice.size (s.solution.inState k) ≤ JoinLattice.size ((propagate out s m).solution.inState k) := by
  rw [inState_propagate]
  split
  · exact size_le_join _ _
  · exact Nat.le_refl _

theorem slack_propagate_le (out : σ) (s : State κ σ) (m : κ) (height : Nat) :
    (propagate out s m).slack height ≤ s.slack height := by
  apply Finset.sum_le_sum
  intro k _
  exact Nat.sub_le_sub_left (size_inState_propagate_le out s m k) height

/-- Growth uses up slack. -/
theorem slack_propagate_lt (hnew : leq out (s.solution.inState m) = false)
    (hfit : JoinLattice.size (join (s.solution.inState m) out) ≤ height) :
    (propagate out s m).slack height < s.slack height := by
  refine Finset.sum_lt_sum (fun k _ => ?_) ⟨m, Finset.mem_univ m, ?_⟩
  · exact Nat.sub_le_sub_left (size_inState_propagate_le out s m k) height
  · rw [inState_propagate, if_pos rfl]
    have hsize := LawfulJoinLattice.size_lt_join hnew
    omega

/-- A successor that becomes pending is paid for: its facts grew, or this is its first time. -/
theorem outstanding_propagate_le (out : σ) (m : κ) (hc : s.worklist.Consistent) :
    (propagate out s m).outstanding ≤
      s.outstanding + if leq out (s.solution.inState m) = true then 0 else 1 := by
  have hfresh : (propagate out s m).fresh.card ≤ s.fresh.card :=
    Finset.card_le_card (fresh_propagate_subset hc)
  unfold State.outstanding
  by_cases hpush : s.IsDue out m ∧ m ∉ s.worklist.pending
  · obtain ⟨hdue, hp⟩ := hpush
    have hlength : (propagate out s m).worklist.pending.length = s.worklist.pending.length + 1 := by
      rw [worklist_propagate, if_pos hdue, Worklist.pending_push hc hp, List.length_append,
        List.length_singleton]
    split
    · next hold =>
      have hfirst : ¬ s.IsKnown m := by
        rintro (h | h)
        · exact hp h
        · exact absurd (hdue.resolve_left (by simp [hold])) (by simp [h])
      have hused := card_fresh_propagate_lt hc hdue hfirst
      omega
    · omega
  · have hlength : (propagate out s m).worklist.pending.length = s.worklist.pending.length := by
      rw [worklist_propagate]
      split
      · next hdue =>
        rw [Worklist.push_of_mem_pending hc (by_contra fun hp => hpush ⟨hdue, hp⟩)]
      · rfl
    omega

/-- Passing facts on to a successor never increases the work that is left. -/
theorem potential_propagate_le (hc : s.worklist.Consistent)
    (hfit : JoinLattice.size (join (s.solution.inState m) out) ≤ height) :
    (propagate out s m).potential height ≤ s.potential height := by
  have houtstanding := outstanding_propagate_le out m hc
  unfold State.potential
  unfold State.outstanding at houtstanding
  cases hnew : leq out (s.solution.inState m) with
  | true =>
      have hslack := slack_propagate_le out s m height
      rw [if_pos hnew] at houtstanding
      omega
  | false =>
      have hgrowth := slack_propagate_lt hnew hfit
      rw [if_neg (by simp [hnew])] at houtstanding
      omega

theorem potential_foldl_propagate_le (ms : List κ) (hc : s.worklist.Consistent)
    (hfit : ∀ k ∈ ms, JoinLattice.size (join (s.solution.inState k) out) ≤ height) :
    (ms.foldl (propagate out) s).potential height ≤ s.potential height := by
  induction ms generalizing s with
  | nil => exact Nat.le_refl _
  | cons m ms ih =>
      rw [List.foldl_cons]
      refine Nat.le_trans (ih (consistent_propagate hc) fun k hk => ?_)
        (potential_propagate_le hc (hfit m List.mem_cons_self))
      rw [inState_propagate]
      split
      · rw [LawfulJoinLattice.join_eq_left (LawfulJoinLattice.leq_join_right _ _)]
        exact hfit k (List.mem_cons_of_mem m hk)
      · exact hfit k (List.mem_cons_of_mem m hk)

end Propagate

omit [JoinLattice σ] in
/-- A node that was taken from the worklist is not outstanding any more. -/
theorem outstanding_record_lt {s : State κ σ} {node : κ} {rest : Worklist κ} (out : σ)
    (hc : s.worklist.Consistent) (hpop : s.worklist.pop = some (node, rest)) :
    State.outstanding ⟨rest, s.solution.countIteration.setOutState node out⟩ < s.outstanding := by
  have hlength : s.worklist.pending.length = rest.pending.length + 1 :=
    (Worklist.pending_perm_of_pop hpop).length_eq
  have hfresh : State.fresh ⟨rest, s.solution.countIteration.setOutState node out⟩ ⊆ s.fresh := by
    intro k hk
    refine State.mem_fresh.2 fun hknown => State.mem_fresh.1 hk ?_
    unfold State.IsKnown at hknown ⊢
    rw [Solution.isVisited_setOutState, Worklist.mem_pending_of_pop hc hpop, Bool.or_eq_true,
      decide_eq_true_iff]
    by_cases e : node = k
    · exact .inr (.inl e)
    · exact hknown.imp (fun hp => ⟨hp, Ne.symm e⟩) fun hv => .inr hv
  have hcard := Finset.card_le_card hfresh
  unfold State.outstanding
  dsimp only
  omega

/-- Recording the result of a node that was taken from the worklist pays for the step. -/
theorem potential_record_lt {s : State κ σ} {node : κ} {rest : Worklist κ} (out : σ) (height : Nat)
    (hc : s.worklist.Consistent) (hpop : s.worklist.pop = some (node, rest)) :
    State.potential height ⟨rest, s.solution.countIteration.setOutState node out⟩ < s.potential height :=
  Nat.add_lt_add_right (outstanding_record_lt out hc hpop) (s.slack height)

omit [JoinLattice σ] in
/-- Before the first step no more is outstanding than there are nodes: the entry is pending. -/
theorem outstanding_start_le (p : Problem κ σ ε) (order : Order) :
    (p.start order).outstanding ≤ Fintype.card κ := by
  have hpending : (p.start order).worklist.pending = [p.entry] := by
    show ((Worklist.empty order).push p.entry).pending = _
    rw [Worklist.pending_push (Worklist.consistent_empty order) (by simp [Worklist.empty])]
    simp [Worklist.empty]
  have hfresh : (p.start order).fresh ⊆ Finset.univ.erase p.entry := by
    intro k hk
    refine Finset.mem_erase.2 ⟨fun e => State.mem_fresh.1 hk (.inl ?_), Finset.mem_univ k⟩
    rw [hpending, e]
    exact List.mem_singleton.2 rfl
  have hle := Finset.card_le_card hfresh
  rw [Finset.card_erase_of_mem (Finset.mem_univ _), Finset.card_univ] at hle
  have hpos : 0 < Fintype.card κ := Fintype.card_pos_iff.2 ⟨p.entry⟩
  unfold State.outstanding
  rw [hpending, List.length_singleton]
  omega

/-- Before the first step the work that is left is what the step bound allows for. -/
theorem potential_start_le {p : Problem κ σ ε} {within : κ → σ → Prop} (hb : p.Bounded within)
    (order : Order) : (p.start order).potential p.height ≤ p.stepBound := by
  have houtstanding := outstanding_start_le p order
  have hslack : (p.start order).slack p.height ≤ Fintype.card κ * p.height := by
    refine (Finset.sum_le_card_nsmul _ _ p.height fun k _ => Nat.sub_le _ _).trans ?_
    exact Nat.le_of_eq (congrArg (· * p.height) Finset.card_univ)
  have hheight : Fintype.card κ * p.height ≤ p.nodeCount * p.height := Nat.mul_le_mul_right _ hb.card_le
  have hnodes := hb.card_le
  unfold State.potential stepBound
  unfold State.outstanding at houtstanding
  omega

variable [LawfulJoinLattice σ]

/-- **Every step decreases the work that is left.** -/
theorem potential_step_lt {p : Problem κ σ ε} {within : κ → σ → Prop} (hb : p.Bounded within)
    {s s' : State κ σ} (hi : p.Invariant s) (hs : ∀ k, within k (s.solution.inState k))
    (hstep : p.step s = some (.ok s')) : s'.potential p.height < s.potential p.height := by
  obtain ⟨node, rest, out, hpop, htransfer, rfl⟩ := exists_visit_of_step_ok hstep
  have hnode : p.Reachable node := hi.reachable node (.inl (Worklist.mem_of_pop hpop))
  refine Nat.lt_of_le_of_lt ?_ (potential_record_lt out p.height hi.consistent hpop)
  refine potential_foldl_propagate_le _ (Worklist.consistent_of_pop hi.consistent hpop) fun m hm => ?_
  exact hb.size_le (hb.join hnode (hs node) htransfer hm (hs m))

/-! ## Runs end -/

/-- How a run ends that was given enough steps: nothing is pending any more, or the transfer function failed
at a reachable node for facts that such a run can find. -/
def Ends (p : Problem κ σ ε) (within : κ → σ → Prop) (result : Except ε (State κ σ)) : Prop :=
  match result with
  | .ok final => final.worklist.pending = []
  | .error e => ∃ node facts, p.Reachable node ∧ within node facts ∧ p.transfer node facts = .error e

theorem ends_run_of_potential_le {p : Problem κ σ ε} {within : κ → σ → Prop} (hb : p.Bounded within)
    {steps : Nat} {s : State κ σ} (hi : p.Invariant s) (hs : ∀ k, within k (s.solution.inState k))
    (hsteps : s.potential p.height ≤ steps) : p.Ends within (p.run steps s) := by
  induction steps generalizing s with
  | zero =>
      have hnone : s.worklist.pending.length = 0 := by
        unfold State.potential at hsteps
        omega
      exact List.length_eq_zero_iff.1 hnone
  | succ steps ih =>
      rw [run]
      split
      · next hnone => exact step_eq_none_iff.1 hnone
      · next next hnext =>
        cases next with
        | error e =>
            obtain ⟨node, hnode, htransfer⟩ := exists_transfer_of_step_error hnext
            exact ⟨node, _, hi.reachable node (.inl hnode), hs node, htransfer⟩
        | ok s' =>
            obtain ⟨node, out, ht⟩ := transition_of_step hi.consistent hnext
            have hless := potential_step_lt hb hi hs hnext
            exact ih (hi.step ht) (hb.step hi ht hs) (by omega)

/-- **Runs end.**  A run from the start that is given as many steps as the step bound allows ends because
nothing is pending, unless the transfer function fails. -/
theorem ends_run {p : Problem κ σ ε} {within : κ → σ → Prop} (hb : p.Bounded within) (order : Order)
    {steps : Nat} (hsteps : p.stepBound ≤ steps) : p.Ends within (p.run steps (p.start order)) :=
  ends_run_of_potential_le hb (p.invariant_start order) (fun k => hb.bottom k)
    (Nat.le_trans (potential_start_le hb order) hsteps)

omit [Fintype κ] [LawfulJoinLattice σ] in
/-- More steps change nothing once nothing is pending. -/
theorem run_of_pending_eq_nil {p : Problem κ σ ε} {steps more : Nat} {s final : State κ σ}
    (hrun : p.run steps s = .ok final) (hfinal : final.worklist.pending = []) (hmore : steps ≤ more) :
    p.run more s = .ok final := by
  induction steps generalizing s more with
  | zero =>
      obtain rfl : s = final := Except.ok.inj hrun
      cases more with
      | zero => rfl
      | succ more => rw [run, step_eq_none_iff.2 hfinal]
  | succ steps ih =>
      obtain ⟨more, rfl⟩ : ∃ n, more = n + 1 := ⟨more - 1, by omega⟩
      rw [run] at hrun ⊢
      split at hrun
      · exact hrun
      · next next hnext =>
        cases next with
        | error e => exact absurd hrun (by simp [Except.bind])
        | ok s' => exact ih hrun (by omega)

end StorageFlow.Problem
