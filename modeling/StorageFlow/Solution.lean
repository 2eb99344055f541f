/-
# StorageFlow.Solution — the facts a solver has found so far.

For every node of a graph a `Solution κ σ` knows the facts merged from its predecessors and, once the node
was processed, the facts after it.  A node that was never reached has the least facts on both sides.  Two
counters record how much work was done.
-/
import StorageFlow.Lattice
import StorageFlow.Table

namespace StorageFlow

universe u v

/-- The facts before and after the nodes of a graph, and the work it took to find them. -/
structure Solution (κ : Type u) (σ : Type v) where
  incoming : Table κ σ
  outgoing : Table κ σ
  iterations : Nat
  growthEvents : Nat

namespace Solution

variable {κ : Type u} {σ : Type v}

/-- The solution before any work was done. -/
def empty : Solution κ σ := ⟨Table.empty, Table.empty, 0, 0⟩

/-- Counts one more processed node. -/
def countIteration (s : Solution κ σ) : Solution κ σ := { s with iterations := s.iterations + 1 }

/-- Counts one more merge that extended the facts of a node. -/
def countGrowth (s : Solution κ σ) : Solution κ σ := { s with growthEvents := s.growthEvents + 1 }

variable [DecidableEq κ]

/-- Tells whether a node was processed. -/
def isVisited (s : Solution κ σ) (node : κ) : Bool := s.outgoing.contains node

/-- Replaces the incoming facts of a node. -/
def setInState (s : Solution κ σ) (node : κ) (facts : σ) : Solution κ σ :=
  { s with incoming := s.incoming.set node facts }

/-- Replaces the facts after a node, which thereby counts as processed. -/
def setOutState (s : Solution κ σ) (node : κ) (facts : σ) : Solution κ σ :=
  { s with outgoing := s.outgoing.set node facts }

variable [JoinLattice σ]

/-- The incoming facts of a node, the least ones if it was not reached. -/
def inState (s : Solution κ σ) (node : κ) : σ := (s.incoming.get? node).getD bottom

/-- The facts after a node; a node that was never processed contributes its incoming facts. -/
def outState (s : Solution κ σ) (node : κ) : σ := (s.outgoing.get? node).getD (s.inState node)

theorem inState_setInState (s : Solution κ σ) (node other : κ) (facts : σ) :
    (s.setInState node facts).inState other = if node = other then facts else s.inState other := by
  unfold inState setInState
  simp only [Table.get?_set]
  split <;> rfl

omit [JoinLattice σ] in
theorem isVisited_setOutState (s : Solution κ σ) (node other : κ) (facts : σ) :
    (s.setOutState node facts).isVisited other = (decide (node = other) || s.isVisited other) := by
  unfold isVisited setOutState Table.contains
  simp only [Table.get?_set]
  split <;> simp_all

end Solution

end StorageFlow
