/-
# StorageFlow.Proofs.Analysis.Distributivity — what a node does to facts.

A node of known kinds turns facts into facts without fail, so it has an effect, and the effect is distributive: facts
that are joined before the node, or after it, come out the same.  What carries this is the closed form of the effect.
Whether a variable is unassigned after a node depends on one question about the facts before it, whether the variable
was unassigned, and an access is new depending on the same question about its own variable.  An answer "yes" for a
join is an answer "yes" for one of its sides, so both components distribute, though the second one reads the first.

Main statement: `transfer_distributes`.
-/
import StorageFlow.Proofs.Analysis.Exactness
import StorageFlow.Proofs.Lattice.Refinement

namespace StorageFlow.Analysis

variable {v : Variable} {o : Occurrence} {os xs ys : List Occurrence} {facts a b out outA outB outJ : PointFacts}

/-! ## One way of entering or another -/

theorem leavesUnassigned_or {p q : Prop} :
    LeavesUnassigned v (p ∨ q) os ↔ LeavesUnassigned v p os ∨ LeavesUnassigned v q os := by
  have hways : LeavesUnassigned v (∃ i : Bool, bif i then q else p) os ↔
      ∃ i : Bool, LeavesUnassigned v (bif i then q else p) os := leavesUnassigned_exists
  simpa using hways

theorem exposes_or {p q : Variable → Prop} :
    Exposes (fun v => p v ∨ q v) os o ↔ Exposes p os o ∨ Exposes q os o := by
  constructor
  · rintro ⟨earlier, later, heq, hstate⟩
    rcases leavesUnassigned_or.1 hstate with hp | hq
    · exact .inl ⟨earlier, later, heq, hp⟩
    · exact .inr ⟨earlier, later, heq, hq⟩
  · rintro (h | h)
    · exact h.imp fun _ => .inl
    · exact h.imp fun _ => .inr

/-! ## The transfer function -/

/-- The effect of two lists in a row is the effect of their concatenation, also where one of them fails. -/
theorem transfer_append (facts : PointFacts) (xs ys : List Occurrence) :
    transfer facts (xs ++ ys) = (transfer facts xs).bind fun mid => transfer mid ys := by
  induction xs generalizing facts with
  | nil => rfl
  | cons x xs ih =>
      rw [List.cons_append, transfer, transfer]
      cases applyOccurrence facts x with
      | error failure => rfl
      | ok mid => exact ih mid

/-- Facts may be joined before some occurrences or after them. -/
theorem toSets_transfer_join (hA : transfer a os = .ok outA) (hB : transfer b os = .ok outB)
    (hJ : transfer (join a b) os = .ok outJ) : outJ.toSets = (join outA outB).toSets := by
  have hunassigned (v : Variable) : v ∈ (join a b).unassigned ↔ v ∈ a.unassigned ∨ v ∈ b.unassigned :=
    FiniteSet.mem_union
  have haccesses (o : Occurrence) : o ∈ (join a b).accesses ↔ o ∈ a.accesses ∨ o ∈ b.accesses :=
    FiniteSet.mem_union
  refine Prod.ext (Set.ext fun v => ?_) (Set.ext fun o => ?_)
  · show v ∈ outJ.unassigned ↔ v ∈ (outA.unassigned.union outB.unassigned)
    rw [FiniteSet.mem_union, mem_unassigned_transfer hA, mem_unassigned_transfer hB, mem_unassigned_transfer hJ,
      hunassigned, leavesUnassigned_or]
  · show o ∈ outJ.accesses ↔ o ∈ (outA.accesses.union outB.accesses)
    rw [FiniteSet.mem_union, mem_accesses_transfer hA, mem_accesses_transfer hB, mem_accesses_transfer hJ]
    simp only [hunassigned, haccesses, exposes_or, and_or_left]
    exact or_or_or_comm

/-- More facts before some occurrences leave more facts after them. -/
theorem leq_transfer (hA : transfer a os = .ok outA) (hB : transfer b os = .ok outB) (hab : leq a b = true) :
    leq outA outB = true := by
  obtain ⟨hunassigned, haccesses⟩ := Facts.isSubset_iff.1 hab
  refine Facts.isSubset_iff.2 ⟨fun v hv => ?_, fun o ho => ?_⟩
  · rw [mem_unassigned_transfer hA] at hv
    exact (mem_unassigned_transfer hB).2 (hv.imp (hunassigned v))
  · rw [mem_accesses_transfer hA] at ho
    refine (mem_accesses_transfer hB).2 (ho.imp (haccesses o) ?_)
    rintro ⟨haccess, hexposed⟩
    exact ⟨haccess, hexposed.imp hunassigned⟩

/-! ## The effect of a node -/

/-- A function on facts is what some occurrences do. -/
structure HasEffect (os : List Occurrence) (effect : PointFacts → PointFacts) : Prop where
  transfer_eq (facts : PointFacts) : transfer facts os = .ok (effect facts)
  -- Facts may be joined before the occurrences or after them.
  join (a b : PointFacts) : (effect (join a b)).toSets = (StorageFlow.join (effect a) (effect b)).toSets
  leq (a b : PointFacts) : leq a b = true → StorageFlow.leq (effect a) (effect b) = true
  -- Later occurrences start from what these leave behind.
  append (more : List Occurrence) (facts : PointFacts) : transfer facts (os ++ more) = transfer (effect facts) more
  -- A variable is unassigned if the last of its occurrences, accesses aside, is a declaration, or if there is none and
  -- it was unassigned before.
  mem_unassigned_iff (facts : PointFacts) (v : Variable) : v ∈ (effect facts).unassigned ↔
    lastSettling v os = some .declaration ∨ lastSettling v os = none ∧ v ∈ facts.unassigned
  -- New are the accesses to storage pointers that are unassigned, in the same sense, where the access stands.
  mem_accesses_iff (facts : PointFacts) (o : Occurrence) : o ∈ (effect facts).accesses ↔
    o ∈ facts.accesses ∨ (o.touch? = some .access ∧ o.subject.storage = .storage ∧
      ∃ earlier later, os = earlier ++ o :: later ∧
        (lastSettling o.subject earlier = some .declaration ∨
          lastSettling o.subject earlier = none ∧ o.subject ∈ facts.unassigned))
  accesses_subset (facts : PointFacts) : facts.accesses ⊆ (effect facts).accesses

/-- **The transfer function is distributive and has a closed form**, for any occurrences of known kinds. -/
theorem transfer_distributes (os : List Occurrence) (hknown : ∀ o ∈ os, ∃ t : Touch, o.kind = t.number) :
    ∃ effect, HasEffect os effect := by
  have htouch (o : Occurrence) (ho : o ∈ os) : ∃ t, o.touch? = some t := by
    obtain ⟨t, ht⟩ := hknown o ho
    exact ⟨t, by rw [Occurrence.touch?, ht, Touch.ofNumber?_number]⟩
  have htransfer (facts : PointFacts) : ∃ out, transfer facts os = .ok out := exists_transfer htouch
  choose effect heffect using htransfer
  have haccesses (facts : PointFacts) (o : Occurrence) : o ∈ (effect facts).accesses ↔
      o ∈ facts.accesses ∨ IsStorageAccess o ∧ Exposes (fun v => v ∈ facts.unassigned) os o :=
    mem_accesses_transfer (heffect facts)
  refine ⟨effect, ?_⟩
  constructor
  · exact heffect
  · intro a b
    exact toSets_transfer_join (heffect a) (heffect b) (heffect _)
  · intro a b hab
    exact leq_transfer (heffect a) (heffect b) hab
  · intro more facts
    rw [transfer_append, heffect]
    rfl
  · intro facts v
    exact mem_unassigned_transfer (heffect facts)
  · intro facts o
    rw [haccesses, IsStorageAccess, Variable.isStorageLocated, beq_iff_eq, and_assoc]
    rfl
  · intro facts o ho
    exact (haccesses facts o).2 (.inl ho)

/-- An access to the pointer, right after its declaration. -/
def earlyAccess : Occurrence := ⟨⟨0, 1⟩, Touch.access.number, pointer, none⟩

/-- A node that declares the pointer and accesses it, then assigns it and accesses it again. -/
def pointerLife : List Occurrence :=
  [⟨⟨0, 0⟩, Touch.declaration.number, pointer, none⟩, earlyAccess,
    ⟨⟨0, 2⟩, Touch.assignment.number, pointer, none⟩, ⟨⟨0, 3⟩, Touch.access.number, pointer, none⟩]

/-- Only the first of the two accesses finds the pointer unassigned, and the node leaves it assigned. -/
theorem pointerLife_distributes :
    (∀ o ∈ pointerLife, ∃ t : Touch, o.kind = t.number) ∧ ∃ effect, HasEffect pointerLife effect ∧
      (effect bottom).unassigned.elements = [] ∧ (effect bottom).accesses.elements = [earlyAccess] := by
  have hknown : ∀ o ∈ pointerLife, ∃ t : Touch, o.kind = t.number := by simp [pointerLife, earlyAccess]
  obtain ⟨effect, heffect⟩ := transfer_distributes pointerLife hknown
  have hrun : (transfer bottom pointerLife).toOption.map
      (fun out => (out.unassigned.elements, out.accesses.elements)) = some ([], [earlyAccess]) := by
    decide +kernel
  rw [heffect.transfer_eq] at hrun
  obtain ⟨hunassigned, haccesses⟩ := Prod.mk.inj (Option.some.inj hrun)
  exact ⟨hknown, effect, heffect, hunassigned, haccesses⟩

end StorageFlow.Analysis
