/-
# StorageFlow.FiniteSet — finite sets with the order of first insertion.

A data-flow fact is a finite set that only ever grows while a fixpoint is computed.  `FiniteSet α` keeps
its elements without repetition, in the order in which they were first inserted; what a set *means* is
its membership predicate, and every operation below comes with the one lemma that says what it does to
membership.

Main statements: `mem_insert`, `mem_erase`, `mem_union`, `isSubset_iff`, and `absorb_eq_union` — adding the
elements of one set to another one by one builds the same set as their union, and reports growth exactly
when the source was not already included (`absorb_grew_iff`).
-/

namespace StorageFlow

universe u v

/-- A finite set, listed without repetition in the order of first insertion. -/
structure FiniteSet (α : Type u) where
  -- The elements, oldest first.
  elements : List α
  nodup : elements.Nodup

namespace FiniteSet

variable {α : Type u} {β : Type v}

/-- Sets with the same listing are the same. -/
theorem ext_elements {s t : FiniteSet α} (h : s.elements = t.elements) : s = t := by
  cases s; cases t; cases h; rfl

/-- Membership is membership in the listing. -/
instance : Membership α (FiniteSet α) := ⟨fun s a => a ∈ s.elements⟩

theorem mem_def {a : α} {s : FiniteSet α} : a ∈ s ↔ a ∈ s.elements := Iff.rfl

/-- The set without elements. -/
def empty : FiniteSet α := ⟨[], .nil⟩

instance : EmptyCollection (FiniteSet α) := ⟨empty⟩
instance : Inhabited (FiniteSet α) := ⟨empty⟩

@[simp] theorem not_mem_empty (a : α) : ¬ a ∈ (empty : FiniteSet α) := List.not_mem_nil

/-- The number of elements. -/
def size (s : FiniteSet α) : Nat := s.elements.length

@[simp] theorem size_empty : (empty : FiniteSet α).size = 0 := rfl

/-- The elements that satisfy a test, in their order. -/
def filter (s : FiniteSet α) (p : α → Bool) : FiniteSet α :=
  ⟨s.elements.filter p, s.nodup.sublist List.filter_sublist⟩

@[simp] theorem mem_filter {s : FiniteSet α} {p : α → Bool} {x : α} :
    x ∈ s.filter p ↔ x ∈ s ∧ p x = true := by
  simp [filter, mem_def]

section Decidable
variable [DecidableEq α]

instance (a : α) (s : FiniteSet α) : Decidable (a ∈ s) :=
  inferInstanceAs (Decidable (a ∈ s.elements))

instance : DecidableEq (FiniteSet α) := fun s t =>
  if h : s.elements = t.elements then isTrue (ext_elements h) else isFalse fun e => h (e ▸ rfl)

/-! ## Insertion and removal -/

/-- Adds an element at the end; an element that is present keeps its place. -/
def insert (s : FiniteSet α) (a : α) : FiniteSet α :=
  if h : a ∈ s.elements then s
  else ⟨s.elements ++ [a], List.nodup_append.2
    ⟨s.nodup, List.nodup_cons.2 ⟨List.not_mem_nil, .nil⟩, fun x hx y hy e => h (by simp_all)⟩⟩

theorem insert_of_mem {s : FiniteSet α} {a : α} (h : a ∈ s) : s.insert a = s := dif_pos h

theorem elements_insert_of_not_mem {s : FiniteSet α} {a : α} (h : ¬ a ∈ s) :
    (s.insert a).elements = s.elements ++ [a] := by
  have h' : ¬ a ∈ s.elements := h
  rw [insert, dif_neg h']

@[simp] theorem mem_insert {s : FiniteSet α} {a x : α} : x ∈ s.insert a ↔ x ∈ s ∨ x = a := by
  by_cases h : a ∈ s
  · rw [insert_of_mem h]
    exact ⟨.inl, fun hx => hx.elim id fun e => e ▸ h⟩
  · rw [mem_def, elements_insert_of_not_mem h, List.mem_append, List.mem_singleton]
    exact Iff.rfl

/-- Removes an element; the others keep their order. -/
def erase (s : FiniteSet α) (a : α) : FiniteSet α :=
  ⟨s.elements.filter (· != a), s.nodup.sublist List.filter_sublist⟩

@[simp] theorem mem_erase {s : FiniteSet α} {a x : α} : x ∈ s.erase a ↔ x ∈ s ∧ x ≠ a := by
  simp [erase, mem_def]

/-- The set of the members of a list. -/
def ofList (xs : List α) : FiniteSet α := xs.foldl insert empty

theorem mem_foldl_insert {xs : List α} {s : FiniteSet α} {x : α} :
    x ∈ xs.foldl insert s ↔ x ∈ s ∨ x ∈ xs := by
  induction xs generalizing s with
  | nil => simp
  | cons y ys ih => simp [ih, or_assoc]

@[simp] theorem mem_ofList {xs : List α} {x : α} : x ∈ ofList xs ↔ x ∈ xs := by
  simp [ofList, mem_foldl_insert]

/-! ## Union and inclusion -/

/-- The union: the elements of the first set, then those that only the second one has. -/
def union (s t : FiniteSet α) : FiniteSet α := ofList (s.elements ++ t.elements)

@[simp] theorem mem_union {s t : FiniteSet α} {x : α} : x ∈ s.union t ↔ x ∈ s ∨ x ∈ t := by
  simp [union, mem_def (s := s), mem_def (s := t)]

/-- Decides whether every element of the first set belongs to the second. -/
def isSubset (s t : FiniteSet α) : Bool := s.elements.all fun a => decide (a ∈ t)

theorem isSubset_iff {s t : FiniteSet α} : s.isSubset t = true ↔ ∀ x, x ∈ s → x ∈ t := by
  simp [isSubset, mem_def]

/-- Adds every element of `source` to `target` and tells whether `target` grew. -/
def absorb (target source : FiniteSet α) : FiniteSet α × Bool :=
  let grown := source.elements.foldl insert target
  (grown, decide (target.size < grown.size))

/-- Inserting members that are all new lists them at the end. -/
theorem elements_foldl_insert_of_disjoint {xs : List α} {s : FiniteSet α}
    (hx : xs.Nodup) (hd : ∀ x ∈ xs, ¬ x ∈ s) :
    (xs.foldl insert s).elements = s.elements ++ xs := by
  induction xs generalizing s with
  | nil => simp
  | cons y ys ih =>
    obtain ⟨hy, hys⟩ := List.nodup_cons.1 hx
    have hny : ¬ y ∈ s := hd y (by simp)
    rw [List.foldl_cons, ih hys, elements_insert_of_not_mem hny, List.append_assoc, List.singleton_append]
    intro x hxs hmem
    rcases mem_insert.1 hmem with h | rfl
    · exact hd x (by simp [hxs]) h
    · exact hy hxs

/-- Relisting a set from nothing gives the set back. -/
theorem ofList_elements (s : FiniteSet α) : ofList s.elements = s :=
  ext_elements <| by
    rw [ofList, elements_foldl_insert_of_disjoint s.nodup (fun x _ => not_mem_empty x)]
    rfl

/-- Adding the elements of one set to another one by one builds their union. -/
theorem absorb_eq_union (target source : FiniteSet α) :
    (target.absorb source).1 = target.union source := by
  show source.elements.foldl insert target = _
  rw [union, ofList, List.foldl_append, ← ofList, ofList_elements]

theorem foldl_insert_of_subset {xs : List α} {s : FiniteSet α} (h : ∀ x ∈ xs, x ∈ s) :
    xs.foldl insert s = s := by
  induction xs generalizing s with
  | nil => rfl
  | cons y ys ih =>
    rw [List.foldl_cons, insert_of_mem (h y (by simp))]
    exact ih fun x hx => h x (by simp [hx])

theorem size_insert_of_not_mem {s : FiniteSet α} {a : α} (h : ¬ a ∈ s) :
    (s.insert a).size = s.size + 1 := by
  simp [size, elements_insert_of_not_mem h]

theorem size_le_foldl_insert {xs : List α} {s : FiniteSet α} : s.size ≤ (xs.foldl insert s).size := by
  induction xs generalizing s with
  | nil => exact Nat.le_refl _
  | cons y ys ih =>
    refine Nat.le_trans ?_ ih
    by_cases h : y ∈ s
    · exact Nat.le_of_eq (by rw [insert_of_mem h])
    · rw [size_insert_of_not_mem h]
      exact Nat.le_succ _

theorem size_lt_foldl_insert_iff {xs : List α} {s : FiniteSet α} :
    s.size < (xs.foldl insert s).size ↔ ∃ x ∈ xs, ¬ x ∈ s := by
  induction xs generalizing s with
  | nil => simp
  | cons y ys ih =>
    rw [List.foldl_cons]
    by_cases h : y ∈ s
    · rw [insert_of_mem h, ih]
      constructor
      · rintro ⟨x, hx, hxs⟩; exact ⟨x, by simp [hx], hxs⟩
      · rintro ⟨x, hx, hxs⟩
        rcases List.mem_cons.1 hx with rfl | hx
        · exact absurd h hxs
        · exact ⟨x, hx, hxs⟩
    · refine iff_of_true ?_ ⟨y, by simp, h⟩
      exact Nat.lt_of_lt_of_le (by rw [size_insert_of_not_mem h]; exact Nat.lt_succ_self _)
        size_le_foldl_insert

/-- A set grows exactly when it did not include the absorbed one. -/
theorem absorb_grew_iff (target source : FiniteSet α) :
    (target.absorb source).2 = true ↔ source.isSubset target = false := by
  show decide (_ < _) = true ↔ _
  rw [decide_eq_true_iff, size_lt_foldl_insert_iff, Bool.eq_false_iff, ne_eq, isSubset_iff]
  simp [mem_def]

end Decidable

end FiniteSet

end StorageFlow
