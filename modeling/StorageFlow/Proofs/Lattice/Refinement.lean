/-
# StorageFlow.Proofs.Lattice.Refinement — joining in place refines a lattice of sets.

What a finite set means is the set of its elements, and what facts mean is a pair of sets; the order in which elements
are listed means nothing.  Read in this way, the operations on finite sets and on facts are those of the lattices
`Set α` and `Set ν × Set α`, and the laws of a join semilattice hold up to equality of sets.

Joining in place adds two things.  It computes the join, and its flag tells whether the target grew; for facts this is
so if either component did.  And among elements in a store it changes its target and nothing else, the source
included, unless the source *is* the target.  `Effect` says what each operation on a store comes to in terms of
`bottom`, `join` and `leq` alone; every run is a chain of such effects.

Main statement: `joinInto_refines_sets`.
-/
import Mathlib.Order.CompletePartialOrder
import Mathlib.Order.ConditionallyCompleteLattice.Basic
import StorageFlow.Lattice.Registers
import StorageFlow.Proofs.Lattice.Laws

namespace StorageFlow

universe u v

/-! ## What elements mean -/

/-- The set of the elements of a finite set. -/
def FiniteSet.toSet {α : Type u} (s : FiniteSet α) : Set α := {x | x ∈ s}

/-- The sets of the variables and of the accesses that facts hold. -/
def Facts.toSets {ν : Type u} {α : Type v} (facts : Facts ν α) : Set ν × Set α :=
  (facts.unassigned.toSet, facts.accesses.toSet)

/-- The operations on lattice elements are those of a mathematical lattice in which the elements are read. -/
structure ReadsAs {σ : Type u} {L : Type v} [JoinLattice σ] [SemilatticeSup L] [OrderBot L] (read : σ → L) :
    Prop where
  read_bottom : read bottom = ⊥
  read_join (a b : σ) : read (join a b) = read a ⊔ read b
  leq_iff (a b : σ) : leq a b = true ↔ read a ≤ read b

/-- The laws of a join semilattice.  Elements that mean the same count as equal. -/
structure IsJoinSemilattice {σ : Type u} {L : Type v} [JoinLattice σ] (read : σ → L) : Prop where
  leq_of_eq {a b : σ} : read a = read b → leq a b = true
  leq_trans {a b c : σ} : leq a b = true → leq b c = true → leq a c = true
  leq_antisymm {a b : σ} : leq a b = true → leq b a = true → read a = read b
  -- The join is the least upper bound.
  leq_join_left (a b : σ) : leq a (join a b) = true
  leq_join_right (a b : σ) : leq b (join a b) = true
  join_leq {a b c : σ} : leq a c = true → leq b c = true → leq (join a b) c = true
  join_assoc (a b c : σ) : read (join (join a b) c) = read (join a (join b c))
  join_comm (a b : σ) : read (join a b) = read (join b a)
  join_self (a : σ) : read (join a a) = read a
  bottom_join (a : σ) : read (join bottom a) = read a
  join_bottom (a : σ) : read (join a bottom) = read a
  bottom_leq (a : σ) : leq bottom a = true

theorem FiniteSet.readsAs_toSet {α : Type u} [DecidableEq α] : ReadsAs (FiniteSet.toSet (α := α)) where
  read_bottom := Set.eq_empty_iff_forall_notMem.2 FiniteSet.not_mem_empty
  read_join _ _ := Set.ext fun _ => FiniteSet.mem_union
  leq_iff _ _ := FiniteSet.isSubset_iff

theorem Facts.readsAs_toSets {ν : Type u} {α : Type v} [DecidableEq ν] [DecidableEq α] :
    ReadsAs (Facts.toSets (ν := ν) (α := α)) where
  read_bottom := Prod.ext FiniteSet.readsAs_toSet.read_bottom FiniteSet.readsAs_toSet.read_bottom
  read_join _ _ := Prod.ext (FiniteSet.readsAs_toSet.read_join _ _) (FiniteSet.readsAs_toSet.read_join _ _)
  leq_iff _ _ := Facts.isSubset_iff

section ReadsAs

variable {σ : Type u} {L : Type v} [JoinLattice σ] [SemilatticeSup L] [OrderBot L] {read : σ → L}

/-- The laws are those of the lattice in which the elements are read. -/
theorem ReadsAs.isJoinSemilattice (h : ReadsAs read) : IsJoinSemilattice read where
  leq_of_eq heq := (h.leq_iff _ _).2 heq.le
  leq_trans hab hbc := (h.leq_iff _ _).2 (((h.leq_iff _ _).1 hab).trans ((h.leq_iff _ _).1 hbc))
  leq_antisymm hab hba := le_antisymm ((h.leq_iff _ _).1 hab) ((h.leq_iff _ _).1 hba)
  leq_join_left a b := by
    rw [h.leq_iff, h.read_join]
    exact le_sup_left
  leq_join_right a b := by
    rw [h.leq_iff, h.read_join]
    exact le_sup_right
  join_leq hac hbc := by
    rw [h.leq_iff, h.read_join]
    exact sup_le ((h.leq_iff _ _).1 hac) ((h.leq_iff _ _).1 hbc)
  join_assoc a b c := by simp only [h.read_join, sup_assoc]
  join_comm a b := by rw [h.read_join, h.read_join, sup_comm]
  join_self a := by rw [h.read_join, sup_idem]
  bottom_join a := by rw [h.read_join, h.read_bottom, bot_sup_eq]
  join_bottom a := by rw [h.read_join, h.read_bottom, sup_bot_eq]
  bottom_leq a := by
    rw [h.leq_iff, h.read_bottom]
    exact bot_le

/-- The flag of an in-place join tells whether the target became larger. -/
theorem ReadsAs.joinInto_grew_iff [LawfulJoinLattice σ] (h : ReadsAs read) (target source : σ) :
    (joinInto target source).2 = true ↔ read target < read (joinInto target source).1 := by
  rw [LawfulJoinLattice.joinInto_snd, LawfulJoinLattice.joinInto_fst, h.read_join, left_lt_sup, ← h.leq_iff,
    Bool.not_eq_true', Bool.not_eq_true]

end ReadsAs

namespace Registers

/-! ## Stores -/

/-- The positions that an operation names. -/
def Operation.positions : Operation → List Nat
  | .bottom => []
  | .join a b => [a, b]
  | .copy a => [a]
  | .joinInto target source => [target, source]
  | .leq a b => [a, b]

/-- The number of elements that an operation appends to a store. -/
def Operation.appended : Operation → Nat
  | .bottom | .join _ _ | .copy _ => 1
  | .joinInto _ _ | .leq _ _ => 0

/-- Operations name positions within a store that has the given number of elements at first. -/
def InScope : Nat → List Operation → Prop
  | _, [] => True
  | size, op :: ops => (∀ i ∈ op.positions, i < size) ∧ InScope (size + op.appended) ops

variable {σ : Type u} [JoinLattice σ]

/-- Carries out operations one after the other; there is no result if one of them has none. -/
def applyAll (rs : Registers σ) : List Operation → Option (Registers σ × List Answer)
  | [] => some (rs, [])
  | op :: ops => do
    let (rs, answer) ← rs.apply op
    let (rs, answers) ← applyAll rs ops
    return (rs, answer :: answers)

/-- What an operation on a store comes to.  All new contents and all answers are values of the operations that change
nothing: a join in place is a join, and its flag says that the source was not below the target. -/
inductive Effect (before : Registers σ) : Operation → Registers σ → Answer → Prop
  | bottom : Effect before .bottom (before ++ [JoinLattice.bottom]) (.position before.length)
  | join {i j : Nat} {a b : σ} : before[i]? = some a → before[j]? = some b →
      Effect before (.join i j) (before ++ [JoinLattice.join a b]) (.position before.length)
  | copy {i : Nat} {a : σ} : before[i]? = some a → Effect before (.copy i) (before ++ [a]) (.position before.length)
  -- Source and target may be one register.
  | joinInto {target source : Nat} {a b : σ} {after : Registers σ} :
      before[target]? = some a → before[source]? = some b → after.length = before.length →
      after[target]? = some (JoinLattice.join a b) → (∀ k, k ≠ target → after[k]? = before[k]?) →
      Effect before (.joinInto target source) after (.flag !JoinLattice.leq b a)
  | leq {i j : Nat} {a b : σ} : before[i]? = some a → before[j]? = some b →
      Effect before (.leq i j) before (.flag (JoinLattice.leq a b))

/-- A chain of effects. -/
inductive Effects : Registers σ → List Operation → Registers σ → List Answer → Prop
  | nil (rs : Registers σ) : Effects rs [] rs []
  | cons {rs mid after : Registers σ} {op : Operation} {ops : List Operation} {answer : Answer}
      {answers : List Answer} : Effect rs op mid answer → Effects mid ops after answers →
      Effects rs (op :: ops) after (answer :: answers)

variable {rs after : Registers σ} {op : Operation} {ops : List Operation} {answer : Answer} {answers : List Answer}

/-! ## One operation -/

/-- An operation that names a position outside the store is not carried out. -/
theorem apply_eq_none {i : Nat} (hi : i ∈ op.positions) (hout : rs.length ≤ i) : rs.apply op = none := by
  have hnone : rs[i]? = none := List.getElem?_eq_none hout
  cases op with
  | bottom => exact absurd hi List.not_mem_nil
  | copy a =>
      obtain rfl : i = a := List.mem_singleton.1 hi
      simp [apply, hnone]
  | join a b | joinInto a b | leq a b =>
      obtain rfl | rfl : i = a ∨ i = b := by simpa [Operation.positions] using hi
      · simp [apply, hnone]
      · simp [apply, hnone]

/-- An operation that names positions within the store is carried out to its effect. -/
theorem exists_effect [LawfulJoinLattice σ] (h : ∀ i ∈ op.positions, i < rs.length) :
    ∃ after answer, rs.apply op = some (after, answer) ∧ Effect rs op after answer := by
  have hfound {i : Nat} (hi : i ∈ op.positions) : ∃ a, rs[i]? = some a := ⟨_, List.getElem?_eq_getElem (h i hi)⟩
  cases op with
  | bottom => exact ⟨_, _, rfl, .bottom⟩
  | copy i =>
      obtain ⟨a, ha⟩ := hfound List.mem_cons_self
      refine ⟨_, _, ?_, .copy ha⟩
      rw [apply, ha]
      rfl
  | join i j =>
      obtain ⟨a, ha⟩ := hfound List.mem_cons_self
      obtain ⟨b, hb⟩ := hfound (List.mem_cons_of_mem i List.mem_cons_self)
      refine ⟨_, _, ?_, .join ha hb⟩
      rw [apply, ha, hb]
      rfl
  | leq i j =>
      obtain ⟨a, ha⟩ := hfound List.mem_cons_self
      obtain ⟨b, hb⟩ := hfound (List.mem_cons_of_mem i List.mem_cons_self)
      refine ⟨_, _, ?_, .leq ha hb⟩
      rw [apply, ha, hb]
      rfl
  | joinInto target source =>
      obtain ⟨a, ha⟩ := hfound List.mem_cons_self
      obtain ⟨b, hb⟩ := hfound (List.mem_cons_of_mem target List.mem_cons_self)
      have hlt : target < rs.length := h target List.mem_cons_self
      refine ⟨rs.set target (JoinLattice.join a b), _, ?_, .joinInto ha hb List.length_set ?_ ?_⟩
      · rw [apply, ha, hb, ← LawfulJoinLattice.joinInto_fst, ← LawfulJoinLattice.joinInto_snd]
        rfl
      · exact List.getElem?_set_self hlt
      · intro k hk
        exact List.getElem?_set_ne hk.symm

theorem effect_of_apply [LawfulJoinLattice σ] (h : rs.apply op = some (after, answer)) :
    (∀ i ∈ op.positions, i < rs.length) ∧ Effect rs op after answer := by
  have hscope : ∀ i ∈ op.positions, i < rs.length := by
    intro i hi
    by_contra hout
    rw [apply_eq_none hi (Nat.le_of_not_lt hout)] at h
    exact absurd h (by simp)
  obtain ⟨after', answer', happly, heffect⟩ := exists_effect hscope
  obtain ⟨rfl, rfl⟩ := Prod.mk.inj (Option.some.inj (happly.symm.trans h))
  exact ⟨hscope, heffect⟩

theorem Effect.length_eq (h : Effect rs op after answer) : after.length = rs.length + op.appended := by
  cases h with
  | bottom | join _ _ | copy _ => exact List.length_append
  | joinInto _ _ hlength _ _ => exact hlength
  | leq _ _ => rfl

/-- A register that is not the target of an in-place join keeps its element. -/
theorem Effect.getElem?_eq (h : Effect rs op after answer) {k : Nat} (hk : k < rs.length)
    (hother : ∀ source, op ≠ .joinInto k source) : after[k]? = rs[k]? := by
  cases h with
  | bottom | join _ _ | copy _ => exact List.getElem?_append_left hk
  | @joinInto target source _ _ _ _ _ _ _ hframe =>
      refine hframe k ?_
      rintro rfl
      exact hother source rfl
  | leq _ _ => rfl

/-! ## Runs -/

theorem applyAll_cons (rs : Registers σ) (op : Operation) (ops : List Operation) :
    rs.applyAll (op :: ops) =
      (rs.apply op).bind fun r => (r.1.applyAll ops).bind fun s => some (s.1, r.2 :: s.2) := rfl

/-- Operations that name positions within the store are carried out. -/
theorem exists_applyAll [LawfulJoinLattice σ] (h : InScope rs.length ops) : ∃ run, rs.applyAll ops = some run := by
  induction ops generalizing rs with
  | nil => exact ⟨(rs, []), rfl⟩
  | cons op ops ih =>
      obtain ⟨mid, answer, happly, heffect⟩ := exists_effect h.1
      have hrest : InScope mid.length ops := heffect.length_eq ▸ h.2
      obtain ⟨run, hrun⟩ := ih hrest
      refine ⟨(run.1, answer :: run.2), ?_⟩
      rw [applyAll_cons, happly, Option.bind_some, hrun, Option.bind_some]

/-- Operations that are carried out name positions within the store and come to their effects one after the other. -/
theorem effects_of_applyAll [LawfulJoinLattice σ] (h : rs.applyAll ops = some (after, answers)) :
    InScope rs.length ops ∧ Effects rs ops after answers := by
  induction ops generalizing rs answers with
  | nil =>
      obtain ⟨rfl, rfl⟩ := Prod.mk.inj (Option.some.inj h)
      exact ⟨trivial, .nil rs⟩
  | cons op ops ih =>
      rw [applyAll_cons] at h
      obtain ⟨⟨mid, answer⟩, happly, hrest⟩ := Option.bind_eq_some_iff.1 h
      obtain ⟨⟨last, more⟩, hall, heq⟩ := Option.bind_eq_some_iff.1 hrest
      obtain ⟨rfl, rfl⟩ := Prod.mk.inj (Option.some.inj heq)
      obtain ⟨hscope, heffect⟩ := effect_of_apply happly
      obtain ⟨hscopes, heffects⟩ := ih hall
      exact ⟨⟨hscope, heffect.length_eq ▸ hscopes⟩, .cons heffect heffects⟩

/-- A register that is never the target of an in-place join keeps its element. -/
theorem Effects.getElem?_eq (h : Effects rs ops after answers) {k : Nat} (hk : k < rs.length)
    (hother : ∀ source, .joinInto k source ∉ ops) : after[k]? = rs[k]? := by
  induction h with
  | nil rs => rfl
  | @cons rs mid after op ops answer answers heffect _ ih =>
      have hmid : mid[k]? = rs[k]? := by
        refine heffect.getElem?_eq hk fun source heq => ?_
        exact hother source (heq ▸ List.mem_cons_self)
      have hlt : k < mid.length := by
        rw [heffect.length_eq]
        exact Nat.lt_add_right _ hk
      rw [ih hlt fun source hmem => hother source (List.mem_cons_of_mem op hmem), hmid]

end Registers

/-! ## The refinement -/

/-- A lattice whose elements can be joined in place refines the lattice in which its elements are read. -/
structure Refines {σ : Type u} {L : Type v} [JoinLattice σ] [SemilatticeSup L] [OrderBot L] (read : σ → L) :
    Prop where
  readsAs : ReadsAs read
  isJoinSemilattice : IsJoinSemilattice read
  -- An in-place join leaves the join in its target; its flag says that the source was not below the target before,
  -- and so it says that the target has grown.
  joinInto_eq (target source : σ) : joinInto target source = (join target source, !leq source target)
  grew_iff (target source : σ) : (joinInto target source).2 = true ↔ read target < read (joinInto target source).1
  -- Exactly the operations that name positions within the store are carried out.
  exists_run_iff (rs : Registers σ) (ops : List Registers.Operation) :
    (∃ run, rs.applyAll ops = some run) ↔ Registers.InScope rs.length ops
  effects (rs after : Registers σ) (ops : List Registers.Operation) (answers : List Registers.Answer) :
    rs.applyAll ops = some (after, answers) → Registers.Effects rs ops after answers
  -- A register changes only as the target of an in-place join.
  unchanged (rs after : Registers σ) (ops : List Registers.Operation) (answers : List Registers.Answer) (k : Nat) :
    rs.applyAll ops = some (after, answers) → k < rs.length → (∀ source, .joinInto k source ∉ ops) →
      after[k]? = rs[k]?

/-- A lawful lattice refines the one in which its elements are read. -/
theorem ReadsAs.refines {σ : Type u} {L : Type v} [JoinLattice σ] [LawfulJoinLattice σ] [SemilatticeSup L] [OrderBot L]
    {read : σ → L} (h : ReadsAs read) : Refines read where
  readsAs := h
  isJoinSemilattice := h.isJoinSemilattice
  joinInto_eq target source :=
    Prod.ext (LawfulJoinLattice.joinInto_fst target source) (LawfulJoinLattice.joinInto_snd target source)
  grew_iff := h.joinInto_grew_iff
  exists_run_iff rs ops := by
    constructor
    · rintro ⟨run, hrun⟩
      exact (Registers.effects_of_applyAll hrun).1
    · exact Registers.exists_applyAll
  effects _ _ _ _ hrun := (Registers.effects_of_applyAll hrun).2
  unchanged _ _ _ _ _ hrun hk hother := (Registers.effects_of_applyAll hrun).2.getElem?_eq hk hother

/-- **Finite sets and facts that are joined in place refine lattices of sets.**  An in-place join of facts tells that
its target grew if one of the components did. -/
theorem joinInto_refines_sets (α ν β : Type u) [DecidableEq α] [DecidableEq ν] [DecidableEq β] :
    Refines (FiniteSet.toSet (α := α)) ∧ Refines (Facts.toSets (ν := ν) (α := β)) ∧
      ∀ target source : Facts ν β, (joinInto target source).2 = true ↔
        target.unassigned.toSet ⊂ (joinInto target source).1.unassigned.toSet ∨
          target.accesses.toSet ⊂ (joinInto target source).1.accesses.toSet := by
  have hsets (γ : Type u) [DecidableEq γ] : Refines (FiniteSet.toSet (α := γ)) := FiniteSet.readsAs_toSet.refines
  refine ⟨hsets α, Facts.readsAs_toSets.refines, fun target source => ?_⟩
  show (_ || _) = true ↔ _
  rw [Bool.or_eq_true]
  exact or_congr ((hsets ν).grew_iff _ _) ((hsets β).grew_iff _ _)

/-- The target grows by an access alone, a join with itself adds nothing, and a copy stays as it was. -/
example :
    let before : Facts Nat Nat := ⟨.ofList [1, 2], .empty⟩
    let source : Facts Nat Nat := ⟨.ofList [2], .ofList [7]⟩
    Registers.applyAll [before, source] [.copy 0, .joinInto 0 1, .joinInto 0 0, .leq 0 2] =
      some ([⟨.ofList [1, 2], .ofList [7]⟩, source, before],
        [.position 2, .flag true, .flag false, .flag false]) := by
  decide

end StorageFlow
