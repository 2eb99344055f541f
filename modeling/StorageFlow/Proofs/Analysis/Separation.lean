/-
# StorageFlow.Proofs.Analysis.Separation — variables do not interfere.

All variables of a function share the fact sets, the growth flags and the worklist of one run.  Touching another
variable may therefore change how often a node is processed, and in which order.  It does not change what is found:
`Flow.about` deletes the occurrences of all variables but some, and the analysis says the same of the variables
that remain, at every node, in either order.

The histories of the smaller flow are those of the whole one without the deleted occurrences.  What a history says
of a variable is settled by the occurrences of this variable, so the deleted ones are not missed.
-/
import StorageFlow.Proofs.Analysis.Meaning

namespace StorageFlow

variable {flow : Flow} {keeps : Variable → Bool} {n : Fin flow.size} {v : Variable} {o : Occurrence}
  {os : List Occurrence}

/-! ## A part of a flow -/

namespace Flow

/-- The flow with the occurrences of some variables only. -/
@[reducible] def about (flow : Flow) (keeps : Variable → Bool) : Flow :=
  { flow with
    nodes := flow.nodes.map fun node =>
      { node with occurrences := node.occurrences.filter fun o => keeps o.subject }
    length_nodes := by rw [List.length_map, flow.length_nodes] }

theorem exits_about (flow : Flow) (keeps : Variable → Bool) (n : Fin flow.size) :
    (flow.about keeps).exits n = flow.exits n := by
  simp [exits, node, about]

theorem occurrences_about (flow : Flow) (keeps : Variable → Bool) (n : Fin flow.size) :
    (flow.about keeps).occurrences n = (flow.occurrences n).filter fun o => keeps o.subject := by
  simp [occurrences, node, about]

theorem exists_before_of_about {n : Fin (flow.about keeps).size} (h : (flow.about keeps).Before n os) :
    ∃ whole, flow.Before n whole ∧ os = whole.filter fun o => keeps o.subject := by
  induction h with
  | entry => exact ⟨[], .entry, rfl⟩
  | @edge k m os _ hm ih =>
      obtain ⟨whole, hwhole, rfl⟩ := ih
      rw [exits_about] at hm
      refine ⟨_, hwhole.edge hm, ?_⟩
      rw [List.filter_append, occurrences_about]

theorem Before.about (h : flow.Before n os) (keeps : Variable → Bool) :
    (flow.about keeps).Before n (os.filter fun o => keeps o.subject) := by
  induction h with
  | entry => exact .entry
  | @edge k m os _ hm ih =>
      rw [List.filter_append, ← occurrences_about]
      exact ih.edge (exits_about flow keeps k ▸ hm)

/-- The histories before a node are those of the whole flow without the deleted occurrences. -/
theorem before_about_iff :
    (flow.about keeps).Before n os ↔ ∃ whole, flow.Before n whole ∧ os = whole.filter fun o => keeps o.subject := by
  constructor
  · exact exists_before_of_about
  · rintro ⟨whole, hwhole, rfl⟩
    exact hwhole.about keeps

theorem after_about_iff :
    (flow.about keeps).After n os ↔ ∃ whole, flow.After n whole ∧ os = whole.filter fun o => keeps o.subject := by
  unfold After
  rw [occurrences_about]
  constructor
  · rintro ⟨earlier, hearlier, rfl⟩
    obtain ⟨whole, hwhole, rfl⟩ := before_about_iff.1 hearlier
    exact ⟨_, ⟨whole, hwhole, rfl⟩, (List.filter_append _ _).symm⟩
  · rintro ⟨_, ⟨whole, hwhole, rfl⟩, rfl⟩
    exact ⟨_, before_about_iff.2 ⟨whole, hwhole, rfl⟩, List.filter_append _ _⟩

theorem HasKnownKinds.about (h : flow.HasKnownKinds) (keeps : Variable → Bool) :
    (flow.about keeps).HasKnownKinds := by
  intro n hn o ho
  obtain ⟨os, hos⟩ := reachable_iff_exists_before.1 hn
  obtain ⟨whole, hwhole, -⟩ := before_about_iff.1 hos
  rw [occurrences_about] at ho
  exact h n hwhole.reachable o (List.mem_filter.1 ho).1

end Flow

namespace Analysis

/-! ## What the deleted occurrences do not say -/

theorem lastSettling_filter (hv : keeps v = true) :
    lastSettling v (os.filter fun o => keeps o.subject) = lastSettling v os := by
  have hsettles (o : Occurrence) : (if keeps o.subject = true then settlingTouch v o else none) = settlingTouch v o := by
    split
    · rfl
    · next hdeleted =>
      have hother : ¬ o.subject = v := fun e => hdeleted (e ▸ hv)
      rw [settlingTouch, if_neg fun h => hother h.1]
  rw [lastSettling, List.filterMap_filter, funext hsettles, lastSettling]

/-- Of the variables that remain, the remaining occurrences leave the same ones unassigned. -/
theorem unassignedAfter_filter_iff :
    UnassignedAfter v (os.filter fun o => keeps o.subject) ↔ UnassignedAfter v os ∧ keeps v = true := by
  unfold UnassignedAfter
  constructor
  · intro h
    obtain ⟨o, ho, rfl, -⟩ := exists_touch_of_lastSettling h
    have hv : keeps o.subject = true := (List.mem_filter.1 ho).2
    exact ⟨lastSettling_filter hv ▸ h, hv⟩
  · rintro ⟨h, hv⟩
    rwa [lastSettling_filter hv]

/-- Of the remaining accesses, the same ones find their variable unassigned. -/
theorem exposes_filter_iff {state : Variable → Prop} :
    Exposes state (os.filter fun o => keeps o.subject) o ↔ Exposes state os o ∧ keeps o.subject = true := by
  have hleaves (hv : keeps o.subject = true) (earlier : List Occurrence) :
      LeavesUnassigned o.subject (state o.subject) (earlier.filter fun o => keeps o.subject) ↔
        LeavesUnassigned o.subject (state o.subject) earlier := by
    rw [LeavesUnassigned, UnassignedAfter, lastSettling_filter hv]
    rfl
  constructor
  · rintro ⟨earlier, later, heq, hstate⟩
    obtain ⟨first, rest, rfl, rfl, hrest⟩ := List.filter_eq_append_iff.1 heq
    obtain ⟨skipped, last, rfl, hskipped, hv, -⟩ := List.filter_eq_cons_iff.1 hrest
    refine ⟨⟨first ++ skipped, last, (List.append_assoc _ _ _).symm, ?_⟩, hv⟩
    rw [← hleaves hv, List.filter_append, List.filter_eq_nil_iff.2 hskipped, List.append_nil]
    exact hstate
  · rintro ⟨⟨earlier, later, rfl, hstate⟩, hv⟩
    refine ⟨_, later.filter fun o => keeps o.subject, ?_, (hleaves hv earlier).2 hstate⟩
    rw [List.filter_append, List.filter_cons, if_pos hv]

theorem shows_filter_iff :
    Shows (os.filter fun o => keeps o.subject) o ↔ Shows os o ∧ keeps o.subject = true := by
  rw [Shows, exposes_filter_iff, ← and_assoc]
  rfl

/-! ## Results about some variables -/

/-- Some facts are those of the whole facts that are about some variables. -/
structure IsPartOf (keeps : Variable → Bool) (part whole : PointFacts) : Prop where
  mem_unassigned_iff (v : Variable) : v ∈ part.unassigned ↔ v ∈ whole.unassigned ∧ keeps v = true
  mem_accesses_iff (o : Occurrence) : o ∈ part.accesses ↔ o ∈ whole.accesses ∧ keeps o.subject = true

/-- The result for a part of a flow says of the variables that remain what the result for the whole flow says. -/
structure SaysTheSame (keeps : Variable → Bool) (part : Result (flow.about keeps)) (whole : Result flow) : Prop where
  isVisited_eq (n : Fin flow.size) : part.solution.isVisited n = whole.solution.isVisited n
  inState (n : Fin flow.size) : IsPartOf keeps (part.solution.inState n) (whole.solution.inState n)
  outState (n : Fin flow.size) : IsPartOf keeps (part.solution.outState n) (whole.solution.outState n)
  accesses : SameUpToTies part.accesses (whole.accesses.filter fun o => keeps o.subject)

/-- What the histories without the deleted occurrences add up to is a part of what the whole ones add up to. -/
theorem SumsUp.isPartOf {part whole : PointFacts} {History Kept : List Occurrence → Prop}
    (hpart : SumsUp part Kept) (hwhole : SumsUp whole History)
    (hkept : ∀ os, Kept os ↔ ∃ whole, History whole ∧ os = whole.filter fun o => keeps o.subject) :
    IsPartOf keeps part whole := by
  have hexists {P : List Occurrence → Prop} :
      (∃ os, Kept os ∧ P os) ↔ ∃ whole, History whole ∧ P (whole.filter fun o => keeps o.subject) := by
    simp only [hkept]
    constructor
    · rintro ⟨_, ⟨whole, hwhole, rfl⟩, hP⟩
      exact ⟨whole, hwhole, hP⟩
    · rintro ⟨whole, hwhole, hP⟩
      exact ⟨_, ⟨whole, hwhole, rfl⟩, hP⟩
  constructor
  · intro v
    rw [hpart.mem_unassigned_iff, hwhole.mem_unassigned_iff, hexists, ← exists_and_right]
    simp only [unassignedAfter_filter_iff, and_assoc]
  · intro o
    rw [hpart.mem_accesses_iff, hwhole.mem_accesses_iff, hexists, ← exists_and_right]
    simp only [shows_filter_iff, and_assoc]

theorem saysTheSame_of_exact {order order' : Order} {part : Result (flow.about keeps)} {whole : Result flow}
    (hrun' : run (flow.about keeps) order' = .ok part) (hrun : run flow order = .ok whole)
    (hpart : part.Exact) (hwhole : whole.Exact) : SaysTheSame keeps part whole := by
  have hout (n : Fin flow.size) : IsPartOf keeps (part.solution.outState n) (whole.solution.outState n) :=
    (hpart.outState n).isPartOf (hwhole.outState n) fun _ => Flow.after_about_iff
  constructor
  · intro n
    rw [Bool.eq_iff_iff, hpart.isVisited_iff, hwhole.isVisited_iff]
    constructor
    · rintro ⟨os, hos⟩
      obtain ⟨whole, hwhole, -⟩ := Flow.before_about_iff.1 hos
      exact ⟨whole, hwhole⟩
    · rintro ⟨os, hos⟩
      exact ⟨_, hos.about keeps⟩
  · intro n
    exact (hpart.inState n).isPartOf (hwhole.inState n) fun _ => Flow.before_about_iff
  · exact hout
  · refine (isReport_accesses hrun').sameUpToTies ((isReport_accesses hrun).filter _) fun o => ?_
    rw [hpart.mem_accesses_iff, (hout flow.exit).mem_accesses_iff, List.mem_filter, hwhole.mem_accesses_iff]

/-- Reported are accesses to storage pointers only. -/
theorem storage_of_mem_accesses {r : Result flow} (h : r.Exact) (ho : o ∈ r.accesses) :
    o.subject.storage = .storage := by
  obtain ⟨os, -, ⟨-, hlocated⟩, -⟩ := h.mem_accesses_iff_exists.1 ho
  exact eq_of_beq hlocated

/-- **Variables do not interfere.**  For any choice of variables, be it a single one, the flow with the occurrences
of these variables only has the same visited nodes as the whole flow, and at every node, before and after it, the
same facts about these variables; the accesses that are reported for it are those of the whole report that are
accesses to these variables.  The two flows may be processed in different orders.  In particular nothing changes in
the report if all storage pointers are among the chosen variables. -/
theorem run_about_says_the_same (flow : Flow) (hknown : flow.HasKnownKinds) (keeps : Variable → Bool)
    (order order' : Order) :
    ∃ whole part, run flow order = .ok whole ∧ run (flow.about keeps) order' = .ok part ∧
      SaysTheSame keeps part whole ∧
      ((∀ v, v.storage = .storage → keeps v = true) → SameUpToTies part.accesses whole.accesses) := by
  obtain ⟨whole, hrun, hwhole⟩ := exists_exact hknown order
  obtain ⟨part, hrun', hpart⟩ := exists_exact (hknown.about keeps) order'
  have hsame : SaysTheSame keeps part whole := saysTheSame_of_exact hrun' hrun hpart hwhole
  refine ⟨whole, part, hrun, hrun', hsame, fun hstorage => ?_⟩
  have hall : (whole.accesses.filter fun o => keeps o.subject) = whole.accesses := by
    refine List.filter_eq_self.2 fun o ho => ?_
    exact hstorage o.subject (storage_of_mem_accesses hwhole ho)
  rw [← hall]
  exact hsame.accesses

/-- A second pointer, which is never assigned. -/
def spare : Variable := ⟨.ofNat 1, 1, .ofNat 8, "q", .storage, ⟨none, .ofNat 10, .ofNat 19⟩⟩

/-- A variable in memory, which is never assigned either. -/
def buffer : Variable := ⟨.ofNat 1, 2, .ofNat 9, "b", .memory, ⟨none, .ofNat 20, .ofNat 29⟩⟩

/-- An access to the second pointer, after the loop. -/
def accessAfterLoop : Occurrence := ⟨⟨3, 0⟩, Touch.access.number, spare, none⟩

/-- An access to the variable in memory, next to it. -/
def bufferAccess : Occurrence := ⟨⟨3, 1⟩, Touch.access.number, buffer, none⟩

/-- A flow that accesses one pointer in a loop, which assigns it on the way back, and after the loop another one and a
variable in memory. -/
def twoPointerFlow : Flow :=
  .sketch "two pointers" [
    ([⟨⟨0, 0⟩, Touch.declaration.number, pointer, none⟩, ⟨⟨0, 1⟩, Touch.declaration.number, spare, none⟩,
      ⟨⟨0, 2⟩, Touch.declaration.number, buffer, none⟩], [1]),
    ([accessInLoop], [2, 3]),
    ([⟨⟨2, 0⟩, Touch.assignment.number, pointer, none⟩], [1]),
    ([accessAfterLoop, bufferAccess], [4])]

/-- Without the second pointer, the report keeps the access to the first one and nothing else.  Without the variable
in memory it keeps both. -/
theorem twoPointerFlow_says_the_same :
    twoPointerFlow.HasKnownKinds ∧ ∃ whole part stored, run twoPointerFlow .lifo = .ok whole ∧
      run (twoPointerFlow.about fun v => v = pointer) .fifo = .ok part ∧
      run (twoPointerFlow.about fun v => v.storage = .storage) .fifo = .ok stored ∧
      SaysTheSame (fun v => v = pointer) part whole ∧ (accessInLoop ∈ whole.accesses ∧ accessInLoop ∈ part.accesses) ∧
      (accessAfterLoop ∈ whole.accesses ∧ accessAfterLoop ∉ part.accesses) ∧
      (bufferAccess ∈ twoPointerFlow.allOccurrences ∧
        bufferAccess ∉ (twoPointerFlow.about fun v => v.storage = .storage).allOccurrences) ∧
      SameUpToTies stored.accesses whole.accesses := by
  have hknown : twoPointerFlow.HasKnownKinds :=
    Flow.hasKnownKinds_of_allOccurrences (by decide +kernel)
  obtain ⟨whole, part, hrun, hpart, hsame, -⟩ :=
    run_about_says_the_same twoPointerFlow hknown (fun v => v = pointer) .lifo .fifo
  obtain ⟨whole', stored, hrun', hstored, -, hstorage⟩ :=
    run_about_says_the_same twoPointerFlow hknown (fun v => v.storage = .storage) .lifo .fifo
  obtain rfl : whole = whole' := Except.ok.inj (hrun.symm.trans hrun')
  have hwhole (o : Occurrence) : o ∈ whole.accesses ↔ o ∈ [accessInLoop, accessAfterLoop] :=
    mem_accesses_iff_of_exit hrun (by decide +kernel)
  have hkept (o : Occurrence) : o ∈ part.accesses ↔ o ∈ whole.accesses ∧ o.subject = pointer := by
    rw [hsame.accesses.perm.mem_iff, List.mem_filter, decide_eq_true_iff]
  have hloop : accessInLoop ∈ whole.accesses := (hwhole _).2 List.mem_cons_self
  have hafter : accessAfterLoop ∈ whole.accesses := (hwhole _).2 (List.mem_cons_of_mem _ List.mem_cons_self)
  refine ⟨hknown, whole, part, stored, hrun, hpart, hstored, hsame, ⟨hloop, (hkept _).2 ⟨hloop, rfl⟩⟩,
    ⟨hafter, fun h => ?_⟩, by decide +kernel, hstorage fun v hv => decide_eq_true hv⟩
  exact absurd ((hkept _).1 h).2 (by decide +kernel)

end Analysis

end StorageFlow
