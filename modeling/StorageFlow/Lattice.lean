/-
# StorageFlow.Lattice — join semilattices whose elements can be joined in place.

A data-flow problem merges facts where paths meet.  `JoinLattice σ` names the operations a solver needs:
the order, the least element, the join, and the in-place join `joinInto`, which besides the new value of
its target says whether the target grew.  Finite sets under inclusion are the instance everything else is
built from; pairs of lattices are joined component by component, and *both* components are always joined
before the two growth flags are combined.
-/
import StorageFlow.FiniteSet

namespace StorageFlow

universe u v

/-- A join semilattice that can merge one element into another and tell whether that changed it. -/
class JoinLattice (σ : Type u) where
  leq : σ → σ → Bool
  bottom : σ
  join : σ → σ → σ
  -- The value of the target after the source was merged into it, and whether the target grew.
  joinInto : (target source : σ) → σ × Bool
  size : σ → Nat

export JoinLattice (leq bottom join joinInto)

/-- Finite sets, ordered by inclusion and joined by union. -/
instance {α : Type u} [DecidableEq α] : JoinLattice (FiniteSet α) where
  leq := FiniteSet.isSubset
  bottom := FiniteSet.empty
  join := FiniteSet.union
  joinInto := FiniteSet.absorb
  size := FiniteSet.size

end StorageFlow
