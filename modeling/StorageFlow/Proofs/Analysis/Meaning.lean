/-
# StorageFlow.Proofs.Analysis.Meaning — a result of the analysis is a statement about histories.

`Result.Exact` reads everything that the analysis answers as a question about the histories of a flow: which nodes
have one, which variables one leaves unassigned, which accesses one shows.  Nothing about the worklist, the order of
processing or the number of steps is left in it.  So the results for two different flows are compared by comparing
histories, without a look at the two runs.

A report is a list in reporting order that repeats nothing; two reports with the same members are the same up to
ties (`IsReport.sameUpToTies`).
-/
import StorageFlow.Proofs.Analysis.Reporting
import StorageFlow.Proofs.Flow.History

namespace StorageFlow

/-- A flow has known kinds if all its occurrences, reachable or not, have one of the numbers that stand for a touch. -/
theorem Flow.hasKnownKinds_of_allOccurrences {flow : Flow}
    (h : ∀ o ∈ flow.allOccurrences,
      o.kind ∈ [Touch.declaration, .assignment, .inlineReference, .access].map Touch.number) :
    flow.HasKnownKinds := by
  intro n _ o ho
  obtain ⟨t, -, ht⟩ := List.mem_map.1 (h o (Flow.mem_allOccurrences ho))
  exact ⟨t, ht.symm⟩

namespace Analysis

variable {flow : Flow} {n : Fin flow.size} {v : Variable} {o : Occurrence} {os other : List Occurrence}
  {order : Order} {r : Result flow}

/-! ## Histories -/

/-- A history contains an access to a storage pointer that is unassigned when the access happens. -/
def Shows (os : List Occurrence) (o : Occurrence) : Prop :=
  IsStorageAccess o ∧ Exposes (fun _ => False) os o

/-- Facts sum up histories: they hold what one of them leaves unassigned or shows. -/
structure SumsUp (facts : PointFacts) (History : List Occurrence → Prop) : Prop where
  mem_unassigned_iff (v : Variable) : v ∈ facts.unassigned ↔ ∃ os, History os ∧ UnassignedAfter v os
  mem_accesses_iff (o : Occurrence) : o ∈ facts.accesses ↔ ∃ os, History os ∧ Shows os o

/-- The facts of a result sum up the histories of a flow, and what arrives at the exit is reported. -/
structure Result.Exact (r : Result flow) : Prop where
  isVisited_iff (n : Fin flow.size) : r.solution.isVisited n = true ↔ ∃ os, flow.Before n os
  inState (n : Fin flow.size) : SumsUp (r.solution.inState n) (flow.Before n)
  outState (n : Fin flow.size) : SumsUp (r.solution.outState n) (flow.After n)
  mem_accesses_iff (o : Occurrence) : o ∈ r.accesses ↔ o ∈ (r.solution.outState flow.exit).accesses

/-- Exactly those accesses are reported that some history through the whole flow shows. -/
theorem Result.Exact.mem_accesses_iff_exists (h : r.Exact) :
    o ∈ r.accesses ↔ ∃ os, flow.After flow.exit os ∧ Shows os o :=
  (h.mem_accesses_iff o).trans ((h.outState flow.exit).mem_accesses_iff o)

theorem exists_way_iff_exists_before (P : List Occurrence → Prop) :
    (∃ way : Way flow n, P (flow.trace way.val)) ↔ ∃ os, flow.Before n os ∧ P os := by
  constructor
  · rintro ⟨way, hway⟩
    exact ⟨_, Flow.before_iff_exists_isPath.2 ⟨way.val, way.property, rfl⟩, hway⟩
  · rintro ⟨os, hbefore, hos⟩
    obtain ⟨before, hpath, rfl⟩ := Flow.before_iff_exists_isPath.1 hbefore
    exact ⟨⟨before, hpath⟩, hos⟩

theorem exists_way_iff_exists_after (P : List Occurrence → Prop) :
    (∃ way : Way flow n, P (flow.trace (way.val ++ [n]))) ↔ ∃ os, flow.After n os ∧ P os := by
  constructor
  · rintro ⟨way, hway⟩
    exact ⟨_, Flow.after_iff_exists_isPath.2 ⟨way.val, way.property, rfl⟩, hway⟩
  · rintro ⟨os, hafter, hos⟩
    obtain ⟨before, hpath, rfl⟩ := Flow.after_iff_exists_isPath.1 hafter
    exact ⟨⟨before, hpath⟩, hos⟩

/-- Whether an access is one to a storage pointer does not depend on the history that shows it. -/
theorem exists_shows_iff {History : List Occurrence → Prop} :
    (∃ os, History os ∧ Shows os o) ↔
      IsStorageAccess o ∧ ∃ os, History os ∧ Exposes (fun _ => False) os o := by
  unfold Shows
  constructor
  · rintro ⟨os, hos, haccess, hexposed⟩
    exact ⟨haccess, os, hos, hexposed⟩
  · rintro ⟨haccess, os, hos, hexposed⟩
    exact ⟨os, hos, haccess, hexposed⟩

section Solved

variable {s : Solution (Fin flow.size) PointFacts}

theorem mem_unassigned_inState_iff (hsolved : (problem flow).Solved s)
    (hjustified : ∀ n, Justified flow n (s.inState n)) :
    v ∈ (s.inState n).unassigned ↔ UnassignedBefore flow n v := by
  refine ⟨(hjustified n).unassigned, ?_⟩
  rintro ⟨way, hway⟩
  exact mem_unassigned_of_way hsolved way hway

theorem mem_accesses_inState_iff (hsolved : (problem flow).Solved s)
    (hjustified : ∀ n, Justified flow n (s.inState n)) :
    o ∈ (s.inState n).accesses ↔ IsStorageAccess o ∧ ExposedBefore flow n o := by
  refine ⟨(hjustified n).accesses, ?_⟩
  rintro ⟨haccess, way, hway⟩
  exact mem_accesses_of_way hsolved haccess way hway

theorem mem_unassigned_outState_iff (hsolved : (problem flow).Solved s)
    (hjustified : ∀ n, Justified flow n (s.inState n)) :
    v ∈ (s.outState n).unassigned ↔ ∃ way : Way flow n, UnassignedAfter v (flow.trace (way.val ++ [n])) := by
  by_cases hn : flow.Reachable n
  · rw [mem_unassigned_transfer (hsolved.transferred hn), mem_unassigned_inState_iff hsolved hjustified,
      leavesUnassigned_unassignedBefore_iff hn]
  · rw [hsolved.outState_eq_bottom hn]
    apply iff_of_false (FiniteSet.not_mem_empty v)
    rintro ⟨way, -⟩
    exact hn (Flow.reachable_iff_exists_isPath.2 ⟨way.val, way.property⟩)

/-- What is solved and justified is exact. -/
theorem exact_of_solved (hsolved : (problem flow).Solved s) (hjustified : ∀ n, Justified flow n (s.inState n)) :
    Result.Exact ⟨reportingOrder (s.outState flow.exit).accesses.elements, s⟩ := by
  constructor
  · intro n
    exact (hsolved.isVisited_iff n).trans Flow.reachable_iff_exists_before
  · intro n
    constructor
    · intro v
      rw [mem_unassigned_inState_iff hsolved hjustified]
      exact exists_way_iff_exists_before (UnassignedAfter v)
    · intro o
      rw [mem_accesses_inState_iff hsolved hjustified, exists_shows_iff]
      exact and_congr_right fun _ => exists_way_iff_exists_before fun os => Exposes _ os o
  · intro n
    constructor
    · intro v
      rw [mem_unassigned_outState_iff hsolved hjustified]
      exact exists_way_iff_exists_after (UnassignedAfter v)
    · intro o
      rw [mem_accesses_outState_iff hsolved hjustified, exists_shows_iff]
      exact and_congr_right fun _ => exists_way_iff_exists_after fun os => Exposes _ os o
  · intro o
    exact mem_reportingOrder

end Solved

/-- **Every run ends in an exact result.** -/
theorem exists_exact (hknown : flow.HasKnownKinds) (order : Order) : ∃ r, run flow order = .ok r ∧ r.Exact := by
  obtain ⟨s, hrun, hsolved, hjustified⟩ := exists_run hknown order
  exact ⟨_, hrun, exact_of_solved hsolved hjustified⟩

/-! ## Reports -/

/-- A list in reporting order that repeats nothing. -/
structure IsReport (os : List Occurrence) : Prop where
  nodup : os.Nodup
  pairwise : os.Pairwise fun a b => (a.compare b).isLE = true

theorem isReport_accesses (hrun : run flow order = .ok r) : IsReport r.accesses := by
  refine ⟨nodup_accesses hrun, ?_⟩
  rw [accesses_eq_reportingOrder hrun]
  refine (pairwise_reportingOrder _).imp fun {a b} h => ?_
  rwa [Occurrence.compare_eq_compare_rank]

/-- What arrives at the exit is reported. -/
theorem mem_accesses_iff_of_exit (hrun : run flow order = .ok r)
    (hexit : (run flow order).toOption.map (fun r => (r.solution.outState flow.exit).accesses.elements) = some os) :
    o ∈ r.accesses ↔ o ∈ os := by
  rw [hrun] at hexit
  rw [accesses_eq_reportingOrder hrun, mem_reportingOrder, ← Option.some.inj hexit]

/-- A part of a report is a report. -/
theorem IsReport.filter (h : IsReport os) (p : Occurrence → Bool) : IsReport (os.filter p) :=
  ⟨h.nodup.sublist List.filter_sublist, h.pairwise.sublist List.filter_sublist⟩

/-- **Reports of the same occurrences are the same up to ties.** -/
theorem IsReport.sameUpToTies (h : IsReport os) (h' : IsReport other) (hmem : ∀ o, o ∈ os ↔ o ∈ other) :
    SameUpToTies os other := by
  have hperm : os.Perm other := (List.perm_ext_iff_of_nodup h.nodup h'.nodup).2 hmem
  have hsorted : reportingOrder os = os := List.mergeSort_of_pairwise h.pairwise
  have hsorted' : reportingOrder other = other := List.mergeSort_of_pairwise h'.pairwise
  rw [← hsorted, ← hsorted']
  exact sameUpToTies_reportingOrder hperm

end Analysis

end StorageFlow
