/-
# StorageFlow.GenKill — transfer functions that remove and add fixed elements.

The classic transfer function of a node over sets first removes the elements the node kills and then adds
those it generates; an element that is killed and generated is in the result.  What nodes do to the unassigned
variables of the analysis is of this kind.
-/
import StorageFlow.Flow
import StorageFlow.Solver

namespace StorageFlow

universe u

/-- What a node removes from a set and adds to it. -/
structure GenKill (α : Type u) where
  gen : FiniteSet α
  kill : FiniteSet α

namespace GenKill

variable {α : Type u} [DecidableEq α]

/-- The set after the node. -/
def apply (effect : GenKill α) (before : FiniteSet α) : FiniteSet α :=
  (before.filter fun x => decide (¬ x ∈ effect.kill)).union effect.gen

theorem mem_apply {effect : GenKill α} {before : FiniteSet α} {x : α} :
    x ∈ effect.apply before ↔ (x ∈ before ∧ ¬ x ∈ effect.kill) ∨ x ∈ effect.gen := by
  simp [apply]

/-- The number of elements that some effects can add at most. -/
def capacity : List (GenKill α) → Nat
  | [] => 0
  | effect :: effects => effect.gen.size + capacity effects

end GenKill

/-- The problem of finding the sets at the nodes of a flow whose nodes have fixed effects.  Nothing but
generated elements is ever found. -/
def Flow.genKillProblem {α : Type} [DecidableEq α] (flow : Flow) (effects : List (GenKill α)) :
    Problem (Fin flow.size) (FiniteSet α) Failure where
  entry := flow.entry
  exits := flow.exits
  -- A node without an effect passes its set on as it is.
  transfer p before := .ok <| match effects[p.val]? with
    | some effect => effect.apply before
    | none => before
  nodeCount := flow.size
  height := GenKill.capacity effects

end StorageFlow
