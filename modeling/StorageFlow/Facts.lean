/-
# StorageFlow.Facts — what is known at a program point.

`Facts ν α` pairs the variables that some path to the point leaves unassigned with the accesses that
happened while their variable was unassigned.  Facts are joined component by component.  The types of
variables and accesses are parameters: the lattice needs nothing of them but decidable equality.
-/
import StorageFlow.Lattice

namespace StorageFlow

universe u v

/-- The facts known at a program point. -/
structure Facts (ν : Type u) (α : Type v) where
  unassigned : FiniteSet ν
  -- Accesses to storage pointers that happened while the pointer was unassigned.
  accesses : FiniteSet α

namespace Facts

variable {ν : Type u} {α : Type v} [DecidableEq ν] [DecidableEq α]

instance : DecidableEq (Facts ν α) := fun a b =>
  if h : a.unassigned = b.unassigned ∧ a.accesses = b.accesses then
    isTrue (by cases a; cases b; cases h.1; cases h.2; rfl)
  else isFalse fun e => h (e ▸ ⟨rfl, rfl⟩)

/-- The component-wise union. -/
def union (a b : Facts ν α) : Facts ν α :=
  ⟨a.unassigned.union b.unassigned, a.accesses.union b.accesses⟩

/-- Merges the source into the target, variables first; grown when either component is. -/
def absorb (target source : Facts ν α) : Facts ν α × Bool :=
  let unassigned := target.unassigned.absorb source.unassigned
  let accesses := target.accesses.absorb source.accesses
  (⟨unassigned.1, accesses.1⟩, unassigned.2 || accesses.2)

/-- The component-wise inclusion. -/
def isSubset (a b : Facts ν α) : Bool :=
  a.unassigned.isSubset b.unassigned && a.accesses.isSubset b.accesses

/-- The number of elements of both components. -/
def size (a : Facts ν α) : Nat := a.unassigned.size + a.accesses.size

/-- Facts, ordered and joined component by component. -/
instance : JoinLattice (Facts ν α) where
  leq := isSubset
  bottom := ⟨FiniteSet.empty, FiniteSet.empty⟩
  join := union
  joinInto := absorb
  size := size

/-- Merging builds the join. -/
theorem absorb_eq_union (target source : Facts ν α) :
    (target.absorb source).1 = target.union source := by
  simp only [absorb, union, FiniteSet.absorb_eq_union]

/-- Facts grow exactly when they did not include the merged ones. -/
theorem absorb_grew_iff (target source : Facts ν α) :
    (target.absorb source).2 = true ↔ source.isSubset target = false := by
  simp only [absorb, isSubset, Bool.or_eq_true, FiniteSet.absorb_grew_iff, Bool.and_eq_false_iff]

end Facts

end StorageFlow
