/-
# StorageFlow.Proofs.Analysis.FixedEffects — the unassigned variables are found by fixed effects.

What a node does to the accesses depends on the variables that are unassigned before it.  What it does to these
variables depends on nothing: it takes away those that it settles, and adds those that it leaves unassigned.  So a
problem with fixed effects, `Flow.genKillProblem`, finds the same variables as the analysis, before and after every
node, whichever orders the two take the nodes in.

No run is followed step by step.  The facts that one run finds on its way stay below what the other one has in the
end, because what the other one has is closed under the same effects; by symmetry the two ends agree.

Main statement: `unassigned_of_fixed_effects`.
-/
import StorageFlow.GenKill
import StorageFlow.Proofs.Analysis.Exactness

namespace StorageFlow

/-! ## Problems with fixed effects -/

section GenKill

variable {α : Type} [DecidableEq α] {flow : Flow} {effects : List (GenKill α)} {n : Fin flow.size}

/-- What some effects generate, effect by effect. -/
def GenKill.generated (effects : List (GenKill α)) : List α := effects.flatMap fun effect => effect.gen.elements

omit [DecidableEq α] in
theorem GenKill.length_generated (effects : List (GenKill α)) : (generated effects).length = capacity effects := by
  induction effects with
  | nil => rfl
  | cons effect effects ih =>
      rw [generated, List.flatMap_cons, List.length_append, ← generated, ih]
      rfl

/-- After a node there is what was there before it, or what the effects generate. -/
theorem GenKill.mem_generated_of_transfer {before out : FiniteSet α} {x : α}
    (hout : (flow.genKillProblem effects).transfer n before = .ok out) (hx : x ∈ out) :
    x ∈ before ∨ x ∈ GenKill.generated effects := by
  obtain rfl := Except.ok.inj hout
  cases heffect : effects[n.val]? with
  | none =>
      rw [heffect] at hx
      exact .inl hx
  | some effect =>
      rw [heffect] at hx
      rcases GenKill.mem_apply.1 hx with ⟨hbefore, -⟩ | hgen
      · exact .inl hbefore
      · exact .inr (List.mem_flatMap.2 ⟨effect, List.mem_of_getElem? heffect, hgen⟩)

/-- **Nothing but generated elements is ever found**, so the capacity of the effects is a height. -/
theorem Flow.genKillProblem_bounded (flow : Flow) (effects : List (GenKill α)) :
    (flow.genKillProblem effects).Bounded fun _ found => ∀ x, x ∈ found → x ∈ GenKill.generated effects where
  bottom _ x hx := absurd hx (FiniteSet.not_mem_empty x)
  join {k m a b out} _ ha hout _ hb := by
    intro x hx
    rcases FiniteSet.mem_union.1 hx with hx | hx
    · exact hb x hx
    · exact (GenKill.mem_generated_of_transfer hout hx).elim (ha x) id
  size_le h := by
    show _ ≤ GenKill.capacity effects
    rw [← GenKill.length_generated]
    exact FiniteSet.size_le_length h
  card_le := Nat.le_of_eq (Fintype.card_fin _)

end GenKill

namespace Analysis

variable {flow : Flow} {n : Fin flow.size} {v : Variable} {os : List Occurrence}

/-! ## The effect of occurrences -/

/-- What some occurrences do to the unassigned variables. -/
def effectOn (os : List Occurrence) : GenKill Variable where
  gen := .ofList ((os.map Occurrence.subject).filter fun v => lastSettling v os = some .declaration)
  kill := .ofList ((os.map Occurrence.subject).filter fun v => (lastSettling v os).isSome)

theorem mem_subjects_of_lastSettling {t : Touch} (h : lastSettling v os = some t) :
    v ∈ os.map Occurrence.subject := by
  obtain ⟨o, ho, rfl, -⟩ := exists_touch_of_lastSettling h
  exact List.mem_map_of_mem ho

theorem mem_gen_effectOn : v ∈ (effectOn os).gen ↔ UnassignedAfter v os := by
  rw [effectOn, FiniteSet.mem_ofList, List.mem_filter, decide_eq_true_iff]
  exact and_iff_right_of_imp mem_subjects_of_lastSettling

theorem mem_kill_effectOn : v ∈ (effectOn os).kill ↔ lastSettling v os ≠ none := by
  rw [effectOn, FiniteSet.mem_ofList, List.mem_filter, Option.isSome_iff_ne_none]
  refine and_iff_right_of_imp fun h => ?_
  obtain ⟨t, ht⟩ := Option.ne_none_iff_exists'.1 h
  exact mem_subjects_of_lastSettling ht

/-- **The effect of occurrences on the unassigned variables is fixed.** -/
theorem mem_apply_effectOn {before : FiniteSet Variable} :
    v ∈ (effectOn os).apply before ↔ LeavesUnassigned v (v ∈ before) os := by
  rw [GenKill.mem_apply, mem_gen_effectOn, mem_kill_effectOn, not_not, or_comm, and_comm]
  rfl

/-- The effects of the nodes of a flow. -/
def effects (flow : Flow) : List (GenKill Variable) := flow.nodes.map fun node => effectOn node.occurrences

theorem transfer_effects (n : Fin flow.size) (before : FiniteSet Variable) :
    (flow.genKillProblem (effects flow)).transfer n before = .ok ((effectOn (flow.occurrences n)).apply before) := by
  have heffect : (effects flow)[n.val]? = some (effectOn (flow.occurrences n)) := by
    rw [effects, List.getElem?_map, List.getElem?_eq_getElem (flow.length_nodes.symm ▸ n.isLt)]
    rfl
  simp only [Flow.genKillProblem, heffect]

/-! ## Two solutions -/

section Solved

variable {s : Solution (Fin flow.size) PointFacts} {t : Solution (Fin flow.size) (FiniteSet Variable)}

/-- After a node that can be reached, fixed effects find the variables that its occurrences leave unassigned. -/
theorem mem_outState_of_effects (ht : (flow.genKillProblem (effects flow)).Solved t) (hn : flow.Reachable n) :
    v ∈ t.outState n ↔ LeavesUnassigned v (v ∈ t.inState n) (flow.occurrences n) := by
  have hout := ht.transferred hn
  rw [transfer_effects] at hout
  rw [← Except.ok.inj hout, mem_apply_effectOn]

/-- The analysis finds no more variables on its way than fixed effects do in the end. -/
theorem preserves_unassigned_below (ht : (flow.genKillProblem (effects flow)).Solved t) :
    (problem flow).Preserves fun n facts => facts.unassigned ⊆ t.inState n where
  bottom n := FiniteSet.empty_subset (t.inState n)
  join {k m a b out} hk ha hout hm hb := by
    refine FiniteSet.union_subset hb fun v hv => ?_
    have hafter : v ∈ t.outState k :=
      (mem_outState_of_effects ht hk).2 (((mem_unassigned_transfer hout).1 hv).imp (ha v))
    exact FiniteSet.isSubset_iff.1 (ht.passedOn hk hm) v hafter

/-- Fixed effects find no more variables on their way than the analysis does in the end. -/
theorem preserves_found_below (hs : (problem flow).Solved s) :
    (flow.genKillProblem (effects flow)).Preserves fun n found => found ⊆ (s.inState n).unassigned where
  bottom n := FiniteSet.empty_subset (s.inState n).unassigned
  join {k m a b out} hk ha hout hm hb := by
    refine FiniteSet.union_subset hb fun v hv => ?_
    rw [transfer_effects] at hout
    rw [← Except.ok.inj hout, mem_apply_effectOn] at hv
    have hafter : v ∈ (s.outState k).unassigned :=
      (mem_unassigned_transfer (hs.transferred hk)).2 (hv.imp (ha v))
    exact (Facts.isSubset_iff.1 (hs.passedOn hk hm)).1 v hafter

end Solved

/-! ## Both problems as a whole -/

/-- **The analysis finds unassigned what fixed effects find**, before and after every node.  The two may take the
nodes in different orders. -/
theorem unassigned_of_fixed_effects (flow : Flow) (hknown : flow.HasKnownKinds) (order order' : Order) :
    ∃ r t, run flow order = .ok r ∧ (flow.genKillProblem (effects flow)).solve order' = .ok t ∧
      ∀ n, r.solution.isVisited n = t.isVisited n ∧
        (∀ v, v ∈ (r.solution.inState n).unassigned ↔ v ∈ t.inState n) ∧
        ∀ v, v ∈ (r.solution.outState n).unassigned ↔ v ∈ t.outState n := by
  obtain ⟨last, hlast, -, hs⟩ := Problem.exists_solved (problem_bounded flow)
    (fun k _ hk _ => exists_transfer fun o ho => exists_touch_of_hasKnownKinds hknown hk ho) order
  obtain ⟨last', hlast', -, ht⟩ := Problem.exists_solved (Flow.genKillProblem_bounded flow (effects flow))
    (fun k a _ _ => ⟨_, transfer_effects k a⟩) order'
  have hbelow := Problem.preserved_of_run (preserves_unassigned_below ht) (hlast _ (Nat.le_refl _))
  have habove := Problem.preserved_of_run (preserves_found_below hs) (hlast' _ (Nat.le_refl _))
  have hin (n : Fin flow.size) (v : Variable) :
      v ∈ (last.solution.inState n).unassigned ↔ v ∈ last'.solution.inState n := ⟨hbelow n v, habove n v⟩
  refine ⟨⟨reportingOrder (last.solution.outState flow.exit).accesses.elements, last.solution⟩, last'.solution,
    by rw [run, Problem.solve_of_run hlast]; rfl, Problem.solve_of_run hlast', fun n => ⟨?_, hin n, fun v => ?_⟩⟩
  · rw [Bool.eq_iff_iff, hs.isVisited_iff, ht.isVisited_iff]
    rfl
  · by_cases hn : flow.Reachable n
    · rw [mem_unassigned_transfer (hs.transferred hn), hin n v, mem_outState_of_effects ht hn]
    · rw [hs.outState_eq_bottom hn, ht.outState_eq_bottom hn]
      rfl

end Analysis

end StorageFlow
