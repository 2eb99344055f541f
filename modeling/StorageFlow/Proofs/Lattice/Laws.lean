/-
# StorageFlow.Proofs.Lattice.Laws — what a solver may rely on when it joins in place.

`JoinLattice` only names operations.  `LawfulJoinLattice` says what they have to do: the order is a preorder
with a least element, the join is the least upper bound of two elements, and the in-place join computes the
join and raises its flag exactly when the source did not lie below the target already.  Two laws go beyond
order theory.  Joining what lies below the target leaves the target *as it is*, not just an element that is
equal to it in the order; and every element that grows grows in size, which is what bounds the number of
growth events of a run.

Finite sets and facts are lawful; the laws of facts are those of their two components.
-/
import Mathlib.Data.List.Perm.Subperm
import StorageFlow.Facts

namespace StorageFlow

universe u v

/-- A join lattice whose operations do what their names say. -/
class LawfulJoinLattice (σ : Type u) [JoinLattice σ] : Prop where
  leq_refl (a : σ) : leq a a = true
  leq_trans {a b c : σ} : leq a b = true → leq b c = true → leq a c = true
  bottom_leq (a : σ) : leq bottom a = true
  leq_join_left (a b : σ) : leq a (join a b) = true
  leq_join_right (a b : σ) : leq b (join a b) = true
  join_leq {a b c : σ} : leq a c = true → leq b c = true → leq (join a b) c = true
  -- Joining in place computes the join.
  joinInto_fst (target source : σ) : (joinInto target source).1 = join target source
  -- The flag tells whether anything new arrived.
  joinInto_snd (target source : σ) : (joinInto target source).2 = !leq source target
  -- Where nothing new arrives, the target stays as it is.
  join_eq_left {target source : σ} : leq source target = true → join target source = target
  -- Where something new arrives, the target becomes larger.
  size_lt_join {target source : σ} :
    leq source target = false → JoinLattice.size target < JoinLattice.size (join target source)

/-! ## Finite sets -/

namespace FiniteSet

variable {α : Type u}

/-- Inclusion of finite sets. -/
instance : HasSubset (FiniteSet α) := ⟨fun s t => ∀ x, x ∈ s → x ∈ t⟩

theorem subset_refl (s : FiniteSet α) : s ⊆ s := fun _ hx => hx

theorem subset_trans {s t r : FiniteSet α} (hst : s ⊆ t) (htr : t ⊆ r) : s ⊆ r := by
  intro x hx
  exact htr x (hst x hx)

theorem empty_subset (s : FiniteSet α) : ∅ ⊆ s := by
  intro x hx
  exact absurd hx (not_mem_empty x)

/-- A set whose elements are all listed has at most as many elements as the list. -/
theorem size_le_length {s : FiniteSet α} {xs : List α} (h : ∀ x, x ∈ s → x ∈ xs) :
    s.size ≤ xs.length :=
  (List.Nodup.subperm s.nodup fun x hx => h x hx).length_le

variable [DecidableEq α]

theorem isSubset_iff_subset {s t : FiniteSet α} : s.isSubset t = true ↔ s ⊆ t := isSubset_iff

theorem subset_union_left (s t : FiniteSet α) : s ⊆ s.union t := by
  intro x hx
  exact mem_union.2 (.inl hx)

theorem subset_union_right (s t : FiniteSet α) : t ⊆ s.union t := by
  intro x hx
  exact mem_union.2 (.inr hx)

theorem union_subset {s t r : FiniteSet α} (hs : s ⊆ r) (ht : t ⊆ r) : s.union t ⊆ r := by
  intro x hx
  rcases mem_union.1 hx with hx | hx
  · exact hs x hx
  · exact ht x hx

/-- The union with a part of a set is the set itself, listed as before. -/
theorem union_eq_left {s t : FiniteSet α} (h : t ⊆ s) : s.union t = s := by
  rw [← absorb_eq_union]
  exact foldl_insert_of_subset h

/-- A set that absorbed something new is larger. -/
theorem size_lt_union {s t : FiniteSet α} (h : t.isSubset s = false) : s.size < (s.union t).size := by
  have hgrew : (s.absorb t).2 = true := (absorb_grew_iff s t).2 h
  rw [← absorb_eq_union]
  exact of_decide_eq_true hgrew

theorem size_le_union (s t : FiniteSet α) : s.size ≤ (s.union t).size := by
  rw [← absorb_eq_union]
  exact size_le_foldl_insert

instance : LawfulJoinLattice (FiniteSet α) where
  leq_refl a := isSubset_iff_subset.2 (subset_refl a)
  leq_trans hab hbc :=
    isSubset_iff_subset.2 (subset_trans (isSubset_iff_subset.1 hab) (isSubset_iff_subset.1 hbc))
  bottom_leq a := isSubset_iff_subset.2 (empty_subset a)
  leq_join_left a b := isSubset_iff_subset.2 (subset_union_left a b)
  leq_join_right a b := isSubset_iff_subset.2 (subset_union_right a b)
  join_leq hac hbc :=
    isSubset_iff_subset.2 (union_subset (isSubset_iff_subset.1 hac) (isSubset_iff_subset.1 hbc))
  joinInto_fst := absorb_eq_union
  joinInto_snd target source := by
    rw [Bool.eq_iff_iff, Bool.not_eq_true']
    exact absorb_grew_iff target source
  join_eq_left h := union_eq_left (isSubset_iff_subset.1 h)
  size_lt_join h := size_lt_union h

end FiniteSet

/-! ## Facts -/

namespace Facts

variable {ν : Type u} {α : Type v} [DecidableEq ν] [DecidableEq α]

theorem isSubset_iff {a b : Facts ν α} :
    a.isSubset b = true ↔ a.unassigned ⊆ b.unassigned ∧ a.accesses ⊆ b.accesses := by
  rw [isSubset, Bool.and_eq_true, FiniteSet.isSubset_iff_subset, FiniteSet.isSubset_iff_subset]

/-- The size of facts grows as soon as one of their components does. -/
theorem size_lt_union {a b : Facts ν α} (h : b.isSubset a = false) : a.size < (a.union b).size := by
  have hv := FiniteSet.size_le_union a.unassigned b.unassigned
  have ha := FiniteSet.size_le_union a.accesses b.accesses
  show a.unassigned.size + a.accesses.size < (a.unassigned.union b.unassigned).size + _
  rcases Bool.and_eq_false_iff.1 h with hnew | hnew
  · exact Nat.add_lt_add_of_lt_of_le (FiniteSet.size_lt_union hnew) ha
  · exact Nat.add_lt_add_of_le_of_lt hv (FiniteSet.size_lt_union hnew)

instance : LawfulJoinLattice (Facts ν α) where
  leq_refl a := isSubset_iff.2 ⟨FiniteSet.subset_refl _, FiniteSet.subset_refl _⟩
  leq_trans hab hbc := by
    obtain ⟨hv, ha⟩ := isSubset_iff.1 hab
    obtain ⟨hv', ha'⟩ := isSubset_iff.1 hbc
    exact isSubset_iff.2 ⟨FiniteSet.subset_trans hv hv', FiniteSet.subset_trans ha ha'⟩
  bottom_leq a := isSubset_iff.2 ⟨FiniteSet.empty_subset _, FiniteSet.empty_subset _⟩
  leq_join_left a b := isSubset_iff.2 ⟨FiniteSet.subset_union_left _ _, FiniteSet.subset_union_left _ _⟩
  leq_join_right a b := isSubset_iff.2 ⟨FiniteSet.subset_union_right _ _, FiniteSet.subset_union_right _ _⟩
  join_leq hac hbc := by
    obtain ⟨hv, ha⟩ := isSubset_iff.1 hac
    obtain ⟨hv', ha'⟩ := isSubset_iff.1 hbc
    exact isSubset_iff.2 ⟨FiniteSet.union_subset hv hv', FiniteSet.union_subset ha ha'⟩
  joinInto_fst := absorb_eq_union
  joinInto_snd target source := by
    rw [Bool.eq_iff_iff, Bool.not_eq_true']
    exact absorb_grew_iff target source
  join_eq_left {target source} h := by
    obtain ⟨hv, ha⟩ := isSubset_iff.1 h
    show Facts.mk _ _ = target
    rw [FiniteSet.union_eq_left hv, FiniteSet.union_eq_left ha]
  size_lt_join h := size_lt_union h

end Facts

end StorageFlow
