/-
# StorageFlow.Proofs.Analysis.Effort — how much work it takes to solve a problem.

The counters of a solver are bounded by what it visits and finds, for any transfer function over sets that stays
within a domain, and for the analysis.  What the analysis can find at a node is limited by the text of the flow: a
variable is unassigned only if it is declared somewhere, and an access is remembered only if it occurs.  So the
number of growth events is bounded without looking at a run.
-/
import StorageFlow.Proofs.Analysis.Meaning
import StorageFlow.Proofs.Solver.Counters
import StorageFlow.Proofs.Solver.SetProblem

namespace StorageFlow

variable {flow : Flow} {n : Fin flow.size} {v : Variable} {o : Occurrence} {os : List Occurrence}

namespace Flow

/-- The variables that a flow declares, each once. -/
def declared (flow : Flow) : FiniteSet Variable :=
  .ofList ((flow.allOccurrences.filter fun o => o.touch? = some .declaration).map Occurrence.subject)

theorem mem_declared_iff :
    v ∈ flow.declared ↔ ∃ o ∈ flow.allOccurrences, o.subject = v ∧ o.touch? = some .declaration := by
  simp only [declared, FiniteSet.mem_ofList, List.mem_map, List.mem_filter, decide_eq_true_iff, and_assoc]
  exact exists_congr fun o => and_congr_right fun _ => and_comm

/-- What happens before a node occurs in the flow. -/
theorem Before.mem_allOccurrences (h : flow.Before n os) (ho : o ∈ os) : o ∈ flow.allOccurrences := by
  induction h with
  | entry => exact absurd ho List.not_mem_nil
  | @edge k m os _ _ ih =>
      rcases List.mem_append.1 ho with ho | ho
      · exact ih ho
      · exact Flow.mem_allOccurrences ho

end Flow

namespace Analysis

/-- What histories of a flow add up to is no larger than the flow. -/
theorem SumsUp.size_le {facts : PointFacts} (h : SumsUp facts (flow.Before n)) :
    facts.size ≤ flow.declared.size + flow.countOccurrences := by
  refine Nat.add_le_add (FiniteSet.size_le_length fun v hv => ?_) (FiniteSet.size_le_length fun o ho => ?_)
  · obtain ⟨os, hos, hunassigned⟩ := (h.mem_unassigned_iff v).1 hv
    obtain ⟨o, ho, hsubject, htouch⟩ := exists_touch_of_lastSettling hunassigned
    exact Flow.mem_declared_iff.2 ⟨o, hos.mem_allOccurrences ho, hsubject, htouch⟩
  · obtain ⟨os, hos, -, hexposed⟩ := (h.mem_accesses_iff o).1 ho
    exact hos.mem_allOccurrences hexposed.mem

/-- The analysis counts no more growth events than its flow has room for. -/
theorem growthEvents_le_of_exact {r : Result flow} (hr : r.Exact) (hcounted : (problem flow).Counted r.solution) :
    r.solution.growthEvents ≤ flow.size * (flow.declared.size + flow.countOccurrences) :=
  calc r.solution.growthEvents
      ≤ ∑ n, (r.solution.inState n).size := hcounted.growthEvents_le
    _ ≤ Fintype.card (Fin flow.size) * (flow.declared.size + flow.countOccurrences) :=
        Finset.sum_le_card_nsmul _ _ _ fun n _ => (hr.inState n).size_le
    _ = flow.size * (flow.declared.size + flow.countOccurrences) := by rw [Fintype.card_fin]

/-- The analysis ends with counters that agree with what it found. -/
theorem counted_of_run_analysis {order : Order} {r : Result flow} (hknown : flow.HasKnownKinds)
    (hrun : run flow order = .ok r) : (problem flow).Counted r.solution := by
  obtain ⟨s, hsolve, hcounted⟩ := Problem.exists_counted (problem_bounded flow)
    (fun k _ hk _ => exists_transfer fun o ho => exists_touch_of_hasKnownKinds hknown hk ho) order
  rw [run, hsolve] at hrun
  rwa [← Except.ok.inj hrun]

/-- **The counters of the solver.**  Solving over sets within a domain ends, in either order, with counters that are
bounded by the nodes that can be reached and the sizes of the sets that were found; and while it runs, the set before
a node only ever grows.  The same is true of the analysis, where moreover the number of growth events is bounded by
the number of nodes, declared variables and occurrences. -/
theorem solve_counts {α : Type} [DecidableEq α] (flow : Flow) (order : Order) (domain : FiniteSet α)
    (f : Fin flow.size → FiniteSet α → FiniteSet α) :
    (flow.StaysWithin f domain → ∃ s, (flow.setProblem domain f).solve order = .ok s ∧
      (flow.setProblem domain f).Counted s ∧ (flow.setProblem domain f).OnlyGrows order) ∧
    (flow.HasKnownKinds → ∃ r, run flow order = .ok r ∧
      (problem flow).Counted r.solution ∧ (problem flow).OnlyGrows order ∧
      r.solution.growthEvents ≤ flow.size * (flow.declared.size + flow.countOccurrences)) := by
  constructor
  · intro hwithin
    obtain ⟨s, hsolve, hcounted⟩ :=
      Problem.exists_counted (Flow.setProblem_bounded hwithin) (fun k a _ _ => ⟨f k a, rfl⟩) order
    exact ⟨s, hsolve, hcounted, Problem.onlyGrows _ order⟩
  · intro hknown
    obtain ⟨r, hrun, hr⟩ := exists_exact hknown order
    have hcounted := counted_of_run_analysis hknown hrun
    exact ⟨r, hrun, hcounted, Problem.onlyGrows _ order, growthEvents_le_of_exact hr hcounted⟩

/-- A flow that accesses and then declares a pointer, and may do so again. -/
def spinningFlow : Flow :=
  .sketch "spinning" [
    ([⟨⟨0, 0⟩, Touch.access.number, pointer, none⟩, ⟨⟨0, 1⟩, Touch.declaration.number, pointer, none⟩], [0, 1])]

/-- Two nodes are processed five times: the facts before each of them grow twice. -/
theorem spinningFlow_counts :
    spinningFlow.StaysWithin (fun n before => before.insert n.val) (.ofList [0, 1]) ∧ spinningFlow.HasKnownKinds ∧
      (∃ s, (spinningFlow.setProblem (.ofList [0, 1]) fun n before => before.insert n.val).solve .fifo = .ok s ∧
        s.visited.card ≤ s.iterations ∧ s.iterations ≤ s.visited.card + s.growthEvents) ∧
      ∃ r, run spinningFlow .lifo = .ok r ∧ (problem spinningFlow).Counted r.solution ∧
        r.solution.visited.card = 2 ∧ r.solution.iterations = 5 ∧ r.solution.growthEvents = 4 := by
  have hwithin : spinningFlow.StaysWithin (fun n before => before.insert n.val) (.ofList [0, 1]) := by
    intro (n : Fin 2) before hbefore x hx
    rcases FiniteSet.mem_insert.1 hx with hx | rfl
    · exact hbefore x hx
    · exact (by decide : ∀ n : Fin 2, n.val ∈ FiniteSet.ofList [0, 1]) n
  have hknown : spinningFlow.HasKnownKinds :=
    Flow.hasKnownKinds_of_allOccurrences (by decide +kernel)
  obtain ⟨s, hsolve, hsets, -⟩ := (solve_counts spinningFlow .fifo (.ofList [0, 1])
    fun n before => before.insert n.val).1 hwithin
  obtain ⟨r, hrun, hcounted, -⟩ := (solve_counts spinningFlow .lifo (.ofList [0, 1])
    fun n before => before.insert n.val).2 hknown
  have hcounters : (run spinningFlow .lifo).toOption.map
      (fun r => (r.solution.visited.card, r.solution.iterations, r.solution.growthEvents)) = some (2, 5, 4) := by
    decide +kernel
  rw [hrun] at hcounters
  obtain ⟨hvisited, hrest⟩ := Prod.mk.inj (Option.some.inj hcounters)
  obtain ⟨hiterations, hgrowth⟩ := Prod.mk.inj hrest
  exact ⟨hwithin, hknown, ⟨s, hsolve, hsets.visited_le, hsets.iterations_le⟩, r, hrun, hcounted, hvisited,
    hiterations, hgrowth⟩

end Analysis

end StorageFlow
