/-
# StorageFlow.Proofs.List.Distinct — the distinct members of a list, in the order of first use.

Paths that are given twice, edges that are recorded twice: whoever collects without repetitions keeps what comes
first.  What a member adds to the distinct ones is decided by what stands in front of it; the lemmas say so for a
member in the middle of a list and for one at its end.
-/
import Mathlib.Data.List.Basic
import Mathlib.Data.List.Induction

namespace StorageFlow

section Insert

variable {α : Type*} [BEq α] [LawfulBEq α] {a : α} {front back : List α}

theorem eraseDups_insert_of_mem (h : a ∈ front) : (front ++ a :: back).eraseDups = (front ++ back).eraseDups := by
  rw [List.eraseDups_append, List.eraseDups_append, List.cons_removeAll, if_neg (by simpa using h)]

/-- What is new stays where it is inserted, and everything else as it is. -/
theorem eraseDups_insert_of_notMem (hfront : a ∉ front) (hback : a ∉ back) :
    (front ++ a :: back).eraseDups = front.eraseDups ++ a :: (back.removeAll front).eraseDups := by
  rw [List.eraseDups_append, List.cons_removeAll, if_pos (by simpa using hfront), List.eraseDups_cons,
    List.filter_eq_self.2]
  intro b hb
  have hb : b ∈ back := (List.mem_filter.1 hb).1
  have hne : b ≠ a := fun heq => hback (heq ▸ hb)
  simpa using hne

/-- What is inserted adds nothing to nothing, if the same was there before. -/
theorem flatMap_insert_eq_nil_iff {β : Type*} {f : α → List β} {b : α} (back : List α) (hb : b ∈ front)
    (h : f a = f b) :
    (front ++ back).eraseDups.flatMap f = [] ↔ (front ++ a :: back).eraseDups.flatMap f = [] := by
  simp only [List.flatMap_eq_nil_iff, List.mem_eraseDups, List.forall_mem_append, List.forall_mem_cons, h]
  constructor
  · exact fun ⟨hearlier, hlater⟩ => ⟨hearlier, hearlier b hb, hlater⟩
  · exact fun ⟨hearlier, _, hlater⟩ => ⟨hearlier, hlater⟩

end Insert

section Snoc

variable {α : Type*} [BEq α] [LawfulBEq α] {a : α} {as : List α}

theorem eraseDups_snoc_of_mem (h : a ∈ as) : (as ++ [a]).eraseDups = as.eraseDups := by
  rw [eraseDups_insert_of_mem h, List.append_nil]

theorem eraseDups_snoc_of_notMem (h : a ∉ as) : (as ++ [a]).eraseDups = as.eraseDups ++ [a] := by
  rw [eraseDups_insert_of_notMem h List.not_mem_nil]
  simp

/-- Different members stay different under a change that keeps them apart. -/
theorem eraseDups_map_of_injective {β : Type*} [BEq β] [LawfulBEq β] {g : α → β} (hg : Function.Injective g)
    (as : List α) : (as.map g).eraseDups = as.eraseDups.map g := by
  induction as using List.reverseRecOn with
  | nil => rfl
  | append_singleton as a ih =>
      have hmem : g a ∈ as.map g ↔ a ∈ as := List.mem_map_of_injective hg
      rw [List.map_append, List.map_singleton]
      by_cases h : a ∈ as
      · rw [eraseDups_snoc_of_mem (hmem.2 h), eraseDups_snoc_of_mem h, ih]
      · rw [eraseDups_snoc_of_notMem (mt hmem.1 h), eraseDups_snoc_of_notMem h, ih, List.map_append,
          List.map_singleton]

end Snoc

end StorageFlow
