/-
# StorageFlow.Proofs.Solver.Renaming — the names of nodes do not matter.

A solver compares nodes with each other and does nothing else with them.  So it works in the same way on a problem
whose nodes have other names, as long as different nodes have different names: the same nodes are pending in the
same order, the same facts are known of them, and as much work was done (`State.IsRenamed`).  Names that belong to
no node may be there too; a run never gets to them.

Main statement: `Problem.IsRenamed.run_endAlike` — runs under different names end alike.
-/
import Mathlib.Data.List.Basic
import Mathlib.Data.Option.Basic
import StorageFlow.Proofs.Action.Effects
import StorageFlow.Solver

namespace StorageFlow

variable {κ ι σ ε : Type} {g : κ → ι}

/-! ## Nodes under other names -/

/-- A worklist has the nodes of another one under other names. -/
structure Worklist.IsRenamed (g : κ → ι) (w : Worklist κ) (v : Worklist ι) : Prop where
  order_eq : v.order = w.order
  pending_eq : v.pending = w.pending.map g
  mem_queued_iff (node : κ) : g node ∈ v.queued ↔ node ∈ w.queued

section Decidable

variable [DecidableEq κ] [DecidableEq ι]

/-- A solution knows the facts of another one, under other names. -/
structure Solution.IsRenamed (g : κ → ι) (s : Solution κ σ) (t : Solution ι σ) : Prop where
  incoming_get? (node : κ) : t.incoming.get? (g node) = s.incoming.get? node
  outgoing_get? (node : κ) : t.outgoing.get? (g node) = s.outgoing.get? node
  iterations_eq : t.iterations = s.iterations
  growthEvents_eq : t.growthEvents = s.growthEvents

/-- A solver is where another one is, under other names. -/
structure Problem.State.IsRenamed (g : κ → ι) (s : Problem.State κ σ) (t : Problem.State ι σ) : Prop where
  worklist : s.worklist.IsRenamed g t.worklist
  solution : s.solution.IsRenamed g t.solution

/-- A problem is another one with its nodes under other names. -/
structure Problem.IsRenamed (g : κ → ι) (p : Problem κ σ ε) (q : Problem ι σ ε) : Prop where
  entry : q.entry = g p.entry
  exits (node : κ) : q.exits (g node) = (p.exits node).map g
  transfer (node : κ) (facts : σ) : q.transfer (g node) facts = p.transfer node facts

/-! ## Worklists -/

namespace Worklist

variable {w : Worklist κ} {v : Worklist ι}

omit [DecidableEq κ] [DecidableEq ι] in
theorem isRenamed_empty (g : κ → ι) (order : Order) : (empty order : Worklist κ).IsRenamed g (empty order) :=
  ⟨rfl, rfl, fun node => iff_of_false (FiniteSet.not_mem_empty _) (FiniteSet.not_mem_empty node)⟩

theorem IsRenamed.push (h : w.IsRenamed g v) (hg : Function.Injective g) (node : κ) :
    (w.push node).IsRenamed g (v.push (g node)) := by
  by_cases hq : node ∈ w.queued
  · rwa [push_of_mem hq, push_of_mem ((h.mem_queued_iff node).2 hq)]
  · have hq' : ¬ g node ∈ v.queued := mt (h.mem_queued_iff node).1 hq
    rw [Worklist.push, if_neg hq, Worklist.push, if_neg hq']
    constructor
    · exact h.order_eq
    · simp [h.pending_eq]
    · intro k
      simp [h.mem_queued_iff, hg.eq_iff]

theorem IsRenamed.release (h : w.IsRenamed g v) (hg : Function.Injective g) (node : κ) (rest : List κ) :
    (w.release node rest).IsRenamed g (v.release (g node) (rest.map g)) := by
  refine ⟨h.order_eq, rfl, fun k => ?_⟩
  simp [Worklist.release, h.mem_queued_iff, hg.eq_iff]

/-- A node and the others after it is taken, under other names. -/
def IsTakenAs (g : κ → ι) (taken : κ × Worklist κ) (taken' : ι × Worklist ι) : Prop :=
  taken'.1 = g taken.1 ∧ taken.2.IsRenamed g taken'.2

theorem IsRenamed.pop (h : w.IsRenamed g v) (hg : Function.Injective g) :
    Option.Rel (IsTakenAs g) w.pop v.pop := by
  unfold Worklist.pop
  rw [h.order_eq, h.pending_eq]
  -- Either order takes the node at an end of the list, and renaming keeps the ends.
  cases w.order with
  | lifo =>
      rw [List.getLast?_map, ← List.map_dropLast]
      cases w.pending.getLast? with
      | none => exact .none
      | some node => exact .some ⟨rfl, h.release hg node _⟩
  | fifo =>
      rw [List.head?_map, ← List.map_tail]
      cases w.pending.head? with
      | none => exact .none
      | some node => exact .some ⟨rfl, h.release hg node _⟩

end Worklist

/-! ## Solutions -/

namespace Solution

variable {s : Solution κ σ} {t : Solution ι σ}

theorem isRenamed_empty (g : κ → ι) : (empty : Solution κ σ).IsRenamed g empty :=
  ⟨fun _ => rfl, fun _ => rfl, rfl, rfl⟩

theorem IsRenamed.isVisited_eq (h : s.IsRenamed g t) (node : κ) : t.isVisited (g node) = s.isVisited node :=
  congrArg Option.isSome (h.outgoing_get? node)

theorem IsRenamed.countIteration (h : s.IsRenamed g t) : s.countIteration.IsRenamed g t.countIteration :=
  { h with iterations_eq := congrArg (· + 1) h.iterations_eq }

theorem IsRenamed.countGrowth (h : s.IsRenamed g t) : s.countGrowth.IsRenamed g t.countGrowth :=
  { h with growthEvents_eq := congrArg (· + 1) h.growthEvents_eq }

theorem IsRenamed.setInState (h : s.IsRenamed g t) (hg : Function.Injective g) (node : κ) (facts : σ) :
    (s.setInState node facts).IsRenamed g (t.setInState (g node) facts) :=
  { h with
    incoming_get? k := by
      simp only [Solution.setInState, Table.get?_set, hg.eq_iff, h.incoming_get?] }

theorem IsRenamed.setOutState (h : s.IsRenamed g t) (hg : Function.Injective g) (node : κ) (facts : σ) :
    (s.setOutState node facts).IsRenamed g (t.setOutState (g node) facts) :=
  { h with
    outgoing_get? k := by
      simp only [Solution.setOutState, Table.get?_set, hg.eq_iff, h.outgoing_get?] }

theorem IsRenamed.inState_eq [JoinLattice σ] (h : s.IsRenamed g t) (node : κ) :
    t.inState (g node) = s.inState node := by
  rw [inState, h.incoming_get?, inState]

end Solution

/-! ## Runs -/

namespace Problem

variable [JoinLattice σ] {p : Problem κ σ ε} {q : Problem ι σ ε} {s : State κ σ} {t : State ι σ}

theorem State.IsRenamed.propagate (h : s.IsRenamed g t) (hg : Function.Injective g) (out : σ) (node : κ) :
    (Problem.propagate out s node).IsRenamed g (Problem.propagate out t (g node)) := by
  have hgrown := h.solution.setInState hg node (joinInto (s.solution.inState node) out).1
  unfold Problem.propagate
  dsimp only
  rw [h.solution.inState_eq, hgrown.isVisited_eq]
  constructor
  · dsimp only
    split
    · exact h.worklist.push hg node
    · exact h.worklist
  · dsimp only
    split
    · exact hgrown.countGrowth
    · exact hgrown

theorem State.IsRenamed.foldl_propagate (h : s.IsRenamed g t) (hg : Function.Injective g) (out : σ)
    (nodes : List κ) :
    (nodes.foldl (Problem.propagate out) s).IsRenamed g ((nodes.map g).foldl (Problem.propagate out) t) := by
  induction nodes generalizing s t with
  | nil => exact h
  | cons node nodes ih => exact ih (h.propagate hg out node)

omit [JoinLattice σ] in
theorem IsRenamed.start (h : p.IsRenamed g q) (hg : Function.Injective g) (order : Order) :
    (p.start order).IsRenamed g (q.start order) := by
  rw [Problem.start, Problem.start, h.entry]
  exact ⟨(Worklist.isRenamed_empty g order).push hg p.entry, Solution.isRenamed_empty g⟩

theorem IsRenamed.visit (h : p.IsRenamed g q) (hg : Function.Injective g) (hs : s.IsRenamed g t) (node : κ) :
    EndAlike (State.IsRenamed g) (p.visit node s) (q.visit (g node) t) := by
  unfold Problem.visit
  rw [hs.solution.inState_eq, h.transfer, h.exits]
  refine (endAlike_refl (fun _ => rfl) (p.transfer node (s.solution.inState node))).map ?_
  rintro out _ rfl
  have hout : State.IsRenamed g ⟨s.worklist, s.solution.countIteration.setOutState node out⟩
      ⟨t.worklist, t.solution.countIteration.setOutState (g node) out⟩ :=
    ⟨hs.worklist, hs.solution.countIteration.setOutState hg node out⟩
  exact hout.foldl_propagate hg out (p.exits node)

theorem IsRenamed.step (h : p.IsRenamed g q) (hg : Function.Injective g) (hs : s.IsRenamed g t) :
    Option.Rel (EndAlike (State.IsRenamed g)) (p.step s) (q.step t) := by
  have hpop := hs.worklist.pop hg
  unfold Problem.step
  generalize s.worklist.pop = before, t.worklist.pop = after at hpop
  cases hpop with
  | none => exact .none
  | @some taken taken' htaken =>
      obtain ⟨node, w⟩ := taken
      obtain ⟨_, v⟩ := taken'
      obtain ⟨rfl, hrest⟩ := htaken
      have htaken : State.IsRenamed g ⟨w, s.solution⟩ ⟨v, t.solution⟩ := ⟨hrest, hs.solution⟩
      exact .some (h.visit hg htaken node)

theorem IsRenamed.run (h : p.IsRenamed g q) (hg : Function.Injective g) (hs : s.IsRenamed g t) (steps : Nat) :
    EndAlike (State.IsRenamed g) (p.run steps s) (q.run steps t) := by
  induction steps generalizing s t with
  | zero => exact .ok hs
  | succ steps ih =>
      have hstep := h.step hg hs
      rw [Problem.run, Problem.run]
      generalize p.step s = before, q.step t = after at hstep
      cases hstep with
      | none => exact .ok hs
      | some hnext => exact hnext.bind fun _ _ hs => ih hs

/-- **The names of nodes do not matter**: after any number of steps the two runs are in the same state but for
the names, or have failed alike. -/
theorem IsRenamed.run_endAlike (h : p.IsRenamed g q) (hg : Function.Injective g) (order : Order) (steps : Nat) :
    EndAlike (State.IsRenamed g) (p.run steps (p.start order)) (q.run steps (q.start order)) :=
  h.run hg (h.start hg order) steps

end Problem

end Decidable

end StorageFlow
