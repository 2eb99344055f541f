/-
# StorageFlow.Proofs.Solver.SetProblem — solving over finite sets, with any transfer function.

`Flow.setProblem` is the problem of finding sets at the nodes of a flow with a transfer function that is only
asked to stay within a finite domain.  It terminates in both orders and ends in a fixpoint: the sets agree
with the transfer function and along all edges, and nothing is known of nodes that cannot be reached.

A transfer function that is not monotone may have passed on elements that it would not pass on again, so more
cannot be said of it.  With a monotone one every element that ever arrived at a node is still justified by a
predecessor at the end; the fixpoint is then the least one, whatever the order in which nodes were taken.
-/
import StorageFlow.Proofs.Flow.Path
import StorageFlow.Proofs.Solver.Fixpoint

namespace StorageFlow.Flow

variable {α : Type} [DecidableEq α]

/-- The problem of finding sets within a domain at the nodes of a flow.  The size of the domain is a height:
it limits the number of steps and has no influence on any of them. -/
def setProblem (flow : Flow) (domain : FiniteSet α) (f : Fin flow.size → FiniteSet α → FiniteSet α) :
    Problem (Fin flow.size) (FiniteSet α) Failure where
  entry := flow.entry
  exits := flow.exits
  transfer n before := .ok (f n before)
  nodeCount := flow.size
  height := domain.size

variable {flow : Flow} {domain : FiniteSet α} {f : Fin flow.size → FiniteSet α → FiniteSet α}
  {s : Solution (Fin flow.size) (FiniteSet α)}

/-- A transfer function stays within a domain. -/
def StaysWithin (flow : Flow) (f : Fin flow.size → FiniteSet α → FiniteSet α) (domain : FiniteSet α) :
    Prop :=
  ∀ n before, before ⊆ domain → f n before ⊆ domain

/-- A transfer function is monotone in the set before a node. -/
def IsMonotone (flow : Flow) (f : Fin flow.size → FiniteSet α → FiniteSet α) : Prop :=
  ∀ n before more, before ⊆ more → f n before ⊆ f n more

/-- The sets of a solution agree with a transfer function and along the edges of the flow. -/
structure IsFixpoint (flow : Flow) (f : Fin flow.size → FiniteSet α → FiniteSet α)
    (s : Solution (Fin flow.size) (FiniteSet α)) : Prop where
  -- Exactly the reachable nodes are visited.
  isVisited_iff (n : Fin flow.size) : s.isVisited n = true ↔ flow.Reachable n
  -- The set after a visited node follows from its final incoming set.
  outState_eq (n : Fin flow.size) : s.isVisited n = true → s.outState n = f n (s.inState n)
  -- The set after a visited node has arrived at its successors.
  outState_subset (n m : Fin flow.size) :
    s.isVisited n = true → m ∈ flow.exits n → s.outState n ⊆ s.inState m
  -- Nothing is known before a node that is not visited.
  inState_eq_empty (n : Fin flow.size) : s.isVisited n = false → s.inState n = ∅
  -- Nothing is known after a node that is not visited.
  outState_eq_empty (n : Fin flow.size) : s.isVisited n = false → s.outState n = ∅

/-- A fixpoint without an element that could be missing. -/
structure IsLeastFixpoint (flow : Flow) (f : Fin flow.size → FiniteSet α → FiniteSet α)
    (s : Solution (Fin flow.size) (FiniteSet α)) : Prop extends flow.IsFixpoint f s where
  -- The set before a node is the union of the sets after its reachable predecessors.
  mem_inState_iff (m : Fin flow.size) (x : α) :
    x ∈ s.inState m ↔ ∃ n, flow.Reachable n ∧ m ∈ flow.exits n ∧ x ∈ s.outState n
  -- Any sets that the transfer function and the edges do not lead out of lie above.
  least (before after : Fin flow.size → FiniteSet α) :
    (∀ n, flow.Reachable n → f n (before n) ⊆ after n) →
    (∀ n m, flow.Reachable n → m ∈ flow.exits n → after n ⊆ before m) →
    ∀ n, flow.Reachable n → s.inState n ⊆ before n ∧ s.outState n ⊆ after n

/-! ## Termination -/

/-- Whatever a run finds lies within the domain, and its size within the height. -/
theorem setProblem_bounded (hf : flow.StaysWithin f domain) :
    (flow.setProblem domain f).Bounded fun _ found => found ⊆ domain where
  bottom _ := FiniteSet.empty_subset domain
  join {k m a b out} _ ha hout _ hb := by
    obtain rfl : f k a = out := Except.ok.inj hout
    exact FiniteSet.union_subset hb (hf k a ha)
  size_le hfound := FiniteSet.size_le_length hfound
  card_le := Nat.le_of_eq (Fintype.card_fin _)

/-- A solved problem over sets is a fixpoint. -/
theorem isFixpoint_of_solved (h : (flow.setProblem domain f).Solved s) : flow.IsFixpoint f s := by
  have hunreachable {n : Fin flow.size} (hn : s.isVisited n = false) : ¬ flow.Reachable n := by
    intro hreach
    rw [(h.isVisited_iff n).2 hreach] at hn
    exact absurd hn (by simp)
  constructor
  · exact h.isVisited_iff
  · intro n hn
    exact (Except.ok.inj (h.transferred ((h.isVisited_iff n).1 hn))).symm
  · intro n m hn hm
    exact FiniteSet.isSubset_iff.1 (h.passedOn ((h.isVisited_iff n).1 hn) hm)
  · intro n hn
    exact h.inState_eq_bottom (hunreachable hn)
  · intro n hn
    exact h.outState_eq_bottom (hunreachable hn)

/-! ## Monotone transfer functions -/

section Monotone

variable {order : Order} {steps : Nat} {final : Problem.State (Fin flow.size) (FiniteSet α)}

/-- With a monotone transfer function, everything that arrived at a node during a run was passed on by a
predecessor that still has it at the end. -/
theorem preserves_justified (hmono : flow.IsMonotone f) (h : flow.IsFixpoint f s) :
    (flow.setProblem domain f).Preserves fun m found =>
      ∀ x, x ∈ found → ∃ n, flow.Reachable n ∧ m ∈ flow.exits n ∧ x ∈ s.outState n where
  bottom _ x hx := absurd hx (FiniteSet.not_mem_empty x)
  join {n m a b out} hn ha hout hm hb := by
    obtain rfl : f n a = out := Except.ok.inj hout
    intro x hx
    rcases FiniteSet.mem_union.1 hx with hx | hx
    · exact hb x hx
    · refine ⟨n, hn, hm, ?_⟩
      have hbelow : a ⊆ s.inState n := by
        intro y hy
        obtain ⟨j, hj, hedge, hy⟩ := ha y hy
        exact h.outState_subset j n ((h.isVisited_iff j).2 hj) hedge y hy
      rw [h.outState_eq n ((h.isVisited_iff n).2 hn)]
      exact hmono n a (s.inState n) hbelow x hx

/-- With a monotone transfer function, a run never leaves what is closed under it and under the edges. -/
theorem preserves_below (hmono : flow.IsMonotone f) {before after : Fin flow.size → FiniteSet α}
    (hafter : ∀ n, flow.Reachable n → f n (before n) ⊆ after n)
    (hbefore : ∀ n m, flow.Reachable n → m ∈ flow.exits n → after n ⊆ before m) :
    (flow.setProblem domain f).Preserves fun n found => found ⊆ before n where
  bottom n := FiniteSet.empty_subset (before n)
  join {n m a b out} hn ha hout hm hb := by
    obtain rfl : f n a = out := Except.ok.inj hout
    have hpassed : f n a ⊆ after n := FiniteSet.subset_trans (hmono n a (before n) ha) (hafter n hn)
    exact FiniteSet.union_subset hb (FiniteSet.subset_trans hpassed (hbefore n m hn hm))

/-- **A run with a monotone transfer function ends in the least fixpoint.** -/
theorem isLeastFixpoint_of_run (hmono : flow.IsMonotone f)
    (hrun : (flow.setProblem domain f).run steps ((flow.setProblem domain f).start order) = .ok final)
    (hsolved : (flow.setProblem domain f).Solved final.solution) :
    flow.IsLeastFixpoint f final.solution := by
  have hfix : flow.IsFixpoint f final.solution := isFixpoint_of_solved hsolved
  refine { hfix with mem_inState_iff := fun m x => ⟨?_, ?_⟩, least := ?_ }
  · exact Problem.preserved_of_run (preserves_justified hmono hfix) hrun m x
  · rintro ⟨n, hn, hm, hx⟩
    exact hfix.outState_subset n m ((hfix.isVisited_iff n).2 hn) hm x hx
  · intro before after hafter hbefore n hn
    have hin : final.solution.inState n ⊆ before n :=
      Problem.preserved_of_run (preserves_below hmono hafter hbefore) hrun n
    refine ⟨hin, ?_⟩
    rw [hfix.outState_eq n ((hfix.isVisited_iff n).2 hn)]
    exact FiniteSet.subset_trans (hmono n _ _ hin) (hafter n hn)

end Monotone

/-! ## The solver as a whole -/

/-- A least fixpoint lies below any other fixpoint, also at the nodes that cannot be reached. -/
theorem IsLeastFixpoint.subset {t : Solution (Fin flow.size) (FiniteSet α)}
    (hs : flow.IsLeastFixpoint f s) (ht : flow.IsFixpoint f t) (n : Fin flow.size) :
    s.inState n ⊆ t.inState n ∧ s.outState n ⊆ t.outState n := by
  cases hvisited : s.isVisited n with
  | true =>
      refine hs.least t.inState t.outState ?_ ?_ n ((hs.isVisited_iff n).1 hvisited)
      · intro k hk
        rw [ht.outState_eq k ((ht.isVisited_iff k).2 hk)]
        exact FiniteSet.subset_refl _
      · intro k m hk hm
        exact ht.outState_subset k m ((ht.isVisited_iff k).2 hk) hm
  | false =>
      rw [hs.inState_eq_empty n hvisited, hs.outState_eq_empty n hvisited]
      exact ⟨FiniteSet.empty_subset _, FiniteSet.empty_subset _⟩

/-- Two solutions visit the same nodes and find the same sets there. -/
structure Agree (s t : Solution (Fin flow.size) (FiniteSet α)) : Prop where
  isVisited_eq (n : Fin flow.size) : s.isVisited n = t.isVisited n
  mem_inState_iff (n : Fin flow.size) (x : α) : x ∈ s.inState n ↔ x ∈ t.inState n
  mem_outState_iff (n : Fin flow.size) (x : α) : x ∈ s.outState n ↔ x ∈ t.outState n

/-- Least fixpoints agree, however they were found. -/
theorem IsLeastFixpoint.agree {t : Solution (Fin flow.size) (FiniteSet α)}
    (hs : flow.IsLeastFixpoint f s) (ht : flow.IsLeastFixpoint f t) : Agree s t := by
  constructor
  · intro n
    rw [Bool.eq_iff_iff, hs.isVisited_iff, ht.isVisited_iff]
  · intro n x
    exact ⟨(hs.subset ht.toIsFixpoint n).1 x, (ht.subset hs.toIsFixpoint n).1 x⟩
  · intro n x
    exact ⟨(hs.subset ht.toIsFixpoint n).2 x, (ht.subset hs.toIsFixpoint n).2 x⟩

/-- **The solver terminates in a fixpoint, in the least one if the transfer function is monotone.**  For
either order there is one state in which every long enough run ends, with nothing left to do. -/
theorem setProblem_terminates (flow : Flow) (domain : FiniteSet α)
    (f : Fin flow.size → FiniteSet α → FiniteSet α) (hf : flow.StaysWithin f domain) :
    ∃ final : Order → Problem.State (Fin flow.size) (FiniteSet α),
      (∀ order,
        (∀ steps, (flow.setProblem domain f).stepBound ≤ steps →
          (flow.setProblem domain f).run steps ((flow.setProblem domain f).start order) =
            .ok (final order)) ∧
        (final order).worklist.pending = [] ∧
        (flow.setProblem domain f).solve order = .ok (final order).solution ∧
        flow.IsFixpoint f (final order).solution) ∧
      (flow.IsMonotone f →
        (∀ order, flow.IsLeastFixpoint f (final order).solution) ∧
        Agree (final .lifo).solution (final .fifo).solution) := by
  have htotal (k : Fin flow.size) (a : FiniteSet α) :
      ∃ out, (flow.setProblem domain f).transfer k a = .ok out := ⟨f k a, rfl⟩
  choose final hrun hpending hsolved using fun order =>
    Problem.exists_solved (setProblem_bounded hf) (fun k a _ _ => htotal k a) order
  refine ⟨final, fun order => ?_, fun hmono => ?_⟩
  · exact ⟨hrun order, hpending order, Problem.solve_of_run (hrun order),
      isFixpoint_of_solved (hsolved order)⟩
  · have hleast (order : Order) : flow.IsLeastFixpoint f (final order).solution :=
      isLeastFixpoint_of_run hmono (hrun order _ (Nat.le_refl _)) (hsolved order)
    exact ⟨hleast, (hleast .lifo).agree (hleast .fifo)⟩

/-- A flow with a loop around two nodes, a node that is its own successor, an edge that is recorded twice and
nodes that cannot be reached. -/
def loopingFlow : Flow where
  functionId := .ofNat 1
  name := "looping"
  size := 5
  nodes := [⟨[], [1, 1]⟩, ⟨[], [1, 0, 2]⟩, ⟨[], []⟩, ⟨[], [2, 4]⟩, ⟨[], [4]⟩]
  length_nodes := rfl
  entry := 0
  exit := 2

/-- Both orders find the same nodes on the way to each node of a cyclic flow. -/
theorem loopingFlow_agree :
    loopingFlow.StaysWithin (fun n before => before.insert n.val) (.ofList [0, 1, 2, 3, 4]) ∧
      loopingFlow.IsMonotone (fun n before => before.insert n.val) ∧
      ∃ s t, (loopingFlow.setProblem (.ofList [0, 1, 2, 3, 4]) fun n before => before.insert n.val).solve
          .lifo = .ok s ∧
        (loopingFlow.setProblem (.ofList [0, 1, 2, 3, 4]) fun n before => before.insert n.val).solve
          .fifo = .ok t ∧ Agree s t := by
  have hnodes : ∀ n : Fin loopingFlow.size, n.val ∈ FiniteSet.ofList [0, 1, 2, 3, 4] := by decide
  have hwithin : loopingFlow.StaysWithin (fun n before => before.insert n.val) (.ofList [0, 1, 2, 3, 4]) := by
    intro n before hbefore x hx
    rcases FiniteSet.mem_insert.1 hx with hx | rfl
    · exact hbefore x hx
    · exact hnodes n
  have hmono : loopingFlow.IsMonotone fun n before => before.insert n.val := by
    intro n before more hmore x hx
    exact FiniteSet.mem_insert.2 ((FiniteSet.mem_insert.1 hx).imp (hmore x) id)
  obtain ⟨final, hruns, hagree⟩ := setProblem_terminates loopingFlow (.ofList [0, 1, 2, 3, 4])
    (fun n before => before.insert n.val) hwithin
  exact ⟨hwithin, hmono, (final .lifo).solution, (final .fifo).solution, (hruns .lifo).2.2.1,
    (hruns .fifo).2.2.1, (hagree hmono).2⟩

end StorageFlow.Flow
