/-
# StorageFlow.Lattice.Registers — a store of lattice elements and the operations on it.

A solver holds many elements at once and updates them in place.  `Registers σ` is such a store, addressed
by position; an `Operation` either appends a new element or reads and updates the ones it names.  Only the
target of `joinInto` ever changes, also when source and target are the same register.
-/
import StorageFlow.Lattice

namespace StorageFlow

universe u

/-- A store of elements, addressed by position. -/
abbrev Registers (σ : Type u) := List σ

namespace Registers

variable {σ : Type u} [JoinLattice σ]

/-- An operation on a store. -/
inductive Operation where
  | bottom
  | join (a b : Nat)
  | copy (a : Nat)
  | joinInto (target source : Nat)
  | leq (a b : Nat)
  deriving DecidableEq, Repr

/-- What an operation answers. -/
inductive Answer where
  | position (index : Nat)
  | flag (value : Bool)
  deriving DecidableEq, Repr

/-- The store with one more element, and the position of that element. -/
def append (rs : Registers σ) (value : σ) : Registers σ × Answer :=
  (rs ++ [value], .position rs.length)

/-- Carries out an operation; there is no result if it names a position outside the store. -/
def apply (rs : Registers σ) : Operation → Option (Registers σ × Answer)
  | .bottom => some (rs.append JoinLattice.bottom)
  | .join a b => do return rs.append (JoinLattice.join (← rs[a]?) (← rs[b]?))
  | .copy a => do return rs.append (← rs[a]?)
  | .joinInto target source => do
    let merged := JoinLattice.joinInto (← rs[target]?) (← rs[source]?)
    return (List.set rs target merged.1, .flag merged.2)
  | .leq a b => do return (rs, .flag (JoinLattice.leq (← rs[a]?) (← rs[b]?)))

end Registers

end StorageFlow
