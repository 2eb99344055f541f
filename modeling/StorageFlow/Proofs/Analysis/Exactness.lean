/-
# StorageFlow.Proofs.Analysis.Exactness — the analysis finds what some path shows, and nothing else.

A way to a node is a path that ends there, seen without the occurrences of the node itself.  What the solver
knows before a node is compared with what the ways to it show.  Nothing is invented: every step of the solver
passes on what some longer way shows, because the transfer function is distributive.  Nothing is missed: by
induction over paths, the final facts before a node include what each way to it shows, because final facts
have arrived along every edge.

The graph may have loops, so there may be infinitely many ways.  Accesses that do not reach the exit are
carried to no exit and are not reported.
-/
import StorageFlow.Proofs.Analysis.Transfer
import StorageFlow.Proofs.Flow.Path
import StorageFlow.Proofs.Solver.Fixpoint

namespace StorageFlow

/-- The occurrences in reachable nodes touch their variables in known ways. -/
def Flow.HasKnownKinds (flow : Flow) : Prop :=
  ∀ n, flow.Reachable n → ∀ o ∈ flow.occurrences n, ∃ t : Touch, o.kind = t.number

namespace Analysis

variable {flow : Flow} {n k m : Fin flow.size} {v : Variable} {o : Occurrence}

/-! ## Ways to a node -/

/-- A path that ends in a node, without that node. -/
abbrev Way (flow : Flow) (n : Fin flow.size) : Type :=
  { before : List (Fin flow.size) // flow.IsPath (before ++ [n]) }

/-- Some way to a node leaves a variable unassigned. -/
def UnassignedBefore (flow : Flow) (n : Fin flow.size) (v : Variable) : Prop :=
  ∃ way : Way flow n, UnassignedAfter v (flow.trace way.val)

/-- On some way to a node an occurrence finds its variable unassigned. -/
def ExposedBefore (flow : Flow) (n : Fin flow.size) (o : Occurrence) : Prop :=
  ∃ way : Way flow n, Exposes (fun _ => False) (flow.trace way.val) o

theorem nonempty_way (hn : flow.Reachable n) : Nonempty (Way flow n) := by
  obtain ⟨before, h⟩ := Flow.reachable_iff_exists_isPath.1 hn
  exact ⟨before, h⟩

/-- A way to a node and the node itself are a way to a successor. -/
def Way.extend (way : Way flow k) (hm : m ∈ flow.exits k) : Way flow m :=
  ⟨way.val ++ [k], Flow.isPath_snoc_iff.2 ⟨way.property, hm⟩⟩

/-- A variable is unassigned after a node exactly if it is along some path to and through the node. -/
theorem leavesUnassigned_unassignedBefore_iff (hn : flow.Reachable n) :
    LeavesUnassigned v (UnassignedBefore flow n v) (flow.occurrences n) ↔
      ∃ way : Way flow n, UnassignedAfter v (flow.trace (way.val ++ [n])) := by
  have := nonempty_way hn
  unfold UnassignedBefore
  rw [leavesUnassigned_exists]
  refine exists_congr fun way => ?_
  have hfalse (os : List Occurrence) : UnassignedAfter v os ↔ LeavesUnassigned v False os :=
    leavesUnassigned_false.symm
  rw [Flow.trace_snoc, hfalse, hfalse, leavesUnassigned_append]

/-- An occurrence finds its variable unassigned before or in a node exactly if it does so along some path to
and through the node. -/
theorem exposedBefore_or_exposes_iff (hn : flow.Reachable n) :
    ExposedBefore flow n o ∨ Exposes (UnassignedBefore flow n) (flow.occurrences n) o ↔
      ∃ way : Way flow n, Exposes (fun _ => False) (flow.trace (way.val ++ [n])) o := by
  have := nonempty_way hn
  have hstate : UnassignedBefore flow n =
      fun v => ∃ way : Way flow n, LeavesUnassigned v False (flow.trace way.val) :=
    funext fun v => propext (exists_congr fun way => leavesUnassigned_false.symm)
  rw [ExposedBefore, hstate, exposes_exists, ← exists_or]
  refine exists_congr fun way => ?_
  rw [Flow.trace_snoc, exposes_append]

/-! ## Nothing is invented -/

/-- Facts before a node are justified if some ways to the node show them. -/
structure Justified (flow : Flow) (n : Fin flow.size) (facts : PointFacts) : Prop where
  unassigned {v : Variable} : v ∈ facts.unassigned → UnassignedBefore flow n v
  accesses {o : Occurrence} : o ∈ facts.accesses → IsStorageAccess o ∧ ExposedBefore flow n o

/-- The transfer function and the join keep facts justified. -/
theorem preserves_justified (flow : Flow) : (problem flow).Preserves (Justified flow) where
  bottom n := ⟨fun hv => absurd hv (FiniteSet.not_mem_empty _), fun ho => absurd ho (FiniteSet.not_mem_empty _)⟩
  join {k m a b out} hk ha hout hm hb := by
    have hreach : flow.Reachable k := hk
    constructor
    · intro v hv
      rcases FiniteSet.mem_union.1 hv with hv | hv
      · exact hb.unassigned hv
      · have hleft := ((mem_unassigned_transfer hout).1 hv).imp ha.unassigned
        obtain ⟨way, hway⟩ := (leavesUnassigned_unassignedBefore_iff hreach).1 hleft
        exact ⟨way.extend hm, hway⟩
    · intro o ho
      rcases FiniteSet.mem_union.1 ho with ho | ho
      · exact hb.accesses ho
      · have hshown : IsStorageAccess o ∧
            (ExposedBefore flow k o ∨ Exposes (UnassignedBefore flow k) (flow.occurrences k) o) := by
          rcases (mem_accesses_transfer hout).1 ho with ho | ⟨haccess, hexposed⟩
          · exact ⟨(ha.accesses ho).1, .inl (ha.accesses ho).2⟩
          · exact ⟨haccess, .inr (hexposed.imp fun v => ha.unassigned)⟩
        obtain ⟨way, hway⟩ := (exposedBefore_or_exposes_iff hreach).1 hshown.2
        exact ⟨hshown.1, way.extend hm, hway⟩

/-! ## Nothing is missed -/

section Solved

variable {s : Solution (Fin flow.size) PointFacts}

/-- The final facts before a node include all variables that a way to it leaves unassigned. -/
theorem mem_unassigned_of_way (hsolved : (problem flow).Solved s) (way : Way flow n)
    (hv : UnassignedAfter v (flow.trace way.val)) : v ∈ (s.inState n).unassigned := by
  refine Flow.IsPath.induction
    (P := fun before n => UnassignedAfter v (flow.trace before) → v ∈ (s.inState n).unassigned)
    ?_ ?_ way.property hv
  · intro hnone
    exact absurd hnone (by simp [Flow.trace, UnassignedAfter])
  · intro before k m hpath hm ih hk
    have hreach : flow.Reachable k := Flow.reachable_iff_exists_isPath.2 ⟨before, hpath⟩
    rw [Flow.trace_snoc, ← leavesUnassigned_false, leavesUnassigned_append, leavesUnassigned_false] at hk
    have hout := (mem_unassigned_transfer (hsolved.transferred hreach)).2 (hk.imp ih)
    exact (Facts.isSubset_iff.1 (hsolved.passedOn hreach hm)).1 v hout

/-- The final facts before a node include all accesses to storage pointers that find their variable unassigned
on a way to it. -/
theorem mem_accesses_of_way (hsolved : (problem flow).Solved s) (haccess : IsStorageAccess o)
    (way : Way flow n) (ho : Exposes (fun _ => False) (flow.trace way.val) o) :
    o ∈ (s.inState n).accesses := by
  refine Flow.IsPath.induction
    (P := fun before n => Exposes (fun _ => False) (flow.trace before) o → o ∈ (s.inState n).accesses)
    ?_ ?_ way.property ho
  · intro hnone
    exact absurd hnone not_exposes_nil
  · intro before k m hpath hm ih hk
    have hreach : flow.Reachable k := Flow.reachable_iff_exists_isPath.2 ⟨before, hpath⟩
    rw [Flow.trace_snoc, exposes_append] at hk
    have hout : o ∈ (s.outState k).accesses := by
      refine (mem_accesses_transfer (hsolved.transferred hreach)).2 (hk.imp ih fun hexposed => ?_)
      refine ⟨haccess, hexposed.imp fun v hv => ?_⟩
      exact mem_unassigned_of_way hsolved ⟨before, hpath⟩ (leavesUnassigned_false.1 hv)
    exact (Facts.isSubset_iff.1 (hsolved.passedOn hreach hm)).2 o hout

end Solved

/-! ## The analysis as a whole -/

/-- Facts mention only what occurs in a flow. -/
structure OccursIn (flow : Flow) (facts : PointFacts) : Prop where
  unassigned {v : Variable} : v ∈ facts.unassigned → v ∈ flow.allOccurrences.map Occurrence.subject
  accesses {o : Occurrence} : o ∈ facts.accesses → o ∈ flow.allOccurrences

/-- Every occurrence can add a variable and an access, so the height of the problem is not exceeded. -/
theorem OccursIn.size_le {facts : PointFacts} (h : OccursIn flow facts) :
    facts.size ≤ 2 * flow.countOccurrences := by
  have hvariables : facts.unassigned.size ≤ flow.countOccurrences := by
    rw [Flow.countOccurrences, ← List.length_map]
    exact FiniteSet.size_le_length fun v hv => h.unassigned hv
  have haccesses : facts.accesses.size ≤ flow.countOccurrences :=
    FiniteSet.size_le_length fun o ho => h.accesses ho
  show facts.unassigned.size + facts.accesses.size ≤ _
  omega

/-- Facts that occur in a flow still do after a node of the flow. -/
theorem OccursIn.transfer {facts out : PointFacts} (h : OccursIn flow facts)
    (hout : Analysis.transfer facts (flow.occurrences n) = .ok out) : OccursIn flow out := by
  constructor
  · intro v hv
    rcases (mem_unassigned_transfer hout).1 hv with hsettled | ⟨-, hbefore⟩
    · obtain ⟨o, ho, rfl, -⟩ := exists_touch_of_lastSettling hsettled
      exact List.mem_map_of_mem (Flow.mem_allOccurrences ho)
    · exact h.unassigned hbefore
  · intro o ho
    rcases (mem_accesses_transfer hout).1 ho with hbefore | ⟨-, hexposed⟩
    · exact h.accesses hbefore
    · exact Flow.mem_allOccurrences hexposed.mem

/-- The step bound of the analysis is large enough. -/
theorem problem_bounded (flow : Flow) : (problem flow).Bounded fun _ facts => OccursIn flow facts where
  bottom _ := ⟨fun hv => absurd hv (FiniteSet.not_mem_empty _), fun ho => absurd ho (FiniteSet.not_mem_empty _)⟩
  join _ ha hout _ hb :=
    ⟨fun hv => (FiniteSet.mem_union.1 hv).elim hb.unassigned (ha.transfer hout).unassigned,
      fun ho => (FiniteSet.mem_union.1 ho).elim hb.accesses (ha.transfer hout).accesses⟩
  size_le h := h.size_le
  card_le := Nat.le_of_eq (Fintype.card_fin _)

theorem exists_touch_of_hasKnownKinds (hknown : flow.HasKnownKinds) (hn : flow.Reachable n)
    (ho : o ∈ flow.occurrences n) : ∃ t, o.touch? = some t := by
  obtain ⟨t, ht⟩ := hknown n hn o ho
  refine ⟨t, ?_⟩
  rw [Occurrence.touch?, ht, Touch.ofNumber?_number]

/-- The analysis ends with facts that are solved and justified. -/
theorem exists_run (hknown : flow.HasKnownKinds) (order : Order) :
    ∃ s, run flow order = .ok ⟨reportingOrder (s.outState flow.exit).accesses.elements, s⟩ ∧
      (problem flow).Solved s ∧ ∀ n, Justified flow n (s.inState n) := by
  obtain ⟨final, hrun, -, hsolved⟩ := Problem.exists_solved (problem_bounded flow)
    (fun k _ hk _ => exists_transfer fun o ho => exists_touch_of_hasKnownKinds hknown hk ho) order
  refine ⟨final.solution, ?_, hsolved, ?_⟩
  · rw [run, Problem.solve_of_run hrun]
    rfl
  · exact Problem.preserved_of_run (preserves_justified flow) (hrun _ (Nat.le_refl _))

theorem mem_reportingOrder {os : List Occurrence} : o ∈ reportingOrder os ↔ o ∈ os :=
  (List.mergeSort_perm os _).mem_iff

/-- Exactly the accesses that are exposed on a path through the whole flow arrive at its exit. -/
theorem mem_accesses_outState_iff {s : Solution (Fin flow.size) PointFacts}
    (hsolved : (problem flow).Solved s) (hjustified : ∀ n, Justified flow n (s.inState n)) :
    o ∈ (s.outState n).accesses ↔ IsStorageAccess o ∧
      ∃ way : Way flow n, Exposes (fun _ => False) (flow.trace (way.val ++ [n])) o := by
  by_cases hn : flow.Reachable n
  · rw [mem_accesses_transfer (hsolved.transferred hn), ← exposedBefore_or_exposes_iff hn]
    constructor
    · rintro (ho | ⟨haccess, hexposed⟩)
      · exact ⟨((hjustified n).accesses ho).1, .inl ((hjustified n).accesses ho).2⟩
      · exact ⟨haccess, .inr (hexposed.imp fun v => (hjustified n).unassigned)⟩
    · rintro ⟨haccess, ⟨way, ho⟩ | hexposed⟩
      · exact .inl (mem_accesses_of_way hsolved haccess way ho)
      · refine .inr ⟨haccess, hexposed.imp fun v => ?_⟩
        rintro ⟨way, hv⟩
        exact mem_unassigned_of_way hsolved way hv
  · rw [hsolved.outState_eq_bottom hn]
    apply iff_of_false (FiniteSet.not_mem_empty o)
    rintro ⟨-, way, -⟩
    exact hn (Flow.reachable_iff_exists_isPath.2 ⟨way.val, way.property⟩)

/-- **The analysis is exact.**  An access is reported if and only if it is an access to a storage pointer
which, on some path from the entry to the exit, comes when the last declaration, assignment or mention in
inline code of its variable was a declaration.  A variable is found unassigned before a node if and only if
some path to the node leaves it so. -/
theorem run_exact (flow : Flow) (order : Order) (hknown : flow.HasKnownKinds) :
    ∃ r, run flow order = .ok r ∧
      (∀ o, o ∈ r.accesses ↔
        o.touch? = some .access ∧ o.subject.storage = .storage ∧
        ∃ before earlier later, flow.IsPath (before ++ [flow.exit]) ∧
          flow.trace (before ++ [flow.exit]) = earlier ++ o :: later ∧
          UnassignedAfter o.subject earlier) ∧
      ∀ n v, v ∈ (r.solution.inState n).unassigned ↔
        ∃ before, flow.IsPath (before ++ [n]) ∧ UnassignedAfter v (flow.trace before) := by
  obtain ⟨s, hrun, hsolved, hjustified⟩ := exists_run hknown order
  refine ⟨_, hrun, fun o => ?_, fun n v => ?_⟩
  · rw [mem_reportingOrder]
    show o ∈ (s.outState flow.exit).accesses ↔ _
    rw [mem_accesses_outState_iff hsolved hjustified, IsStorageAccess, Variable.isStorageLocated,
      beq_iff_eq, and_assoc]
    refine and_congr_right fun _ => and_congr_right fun _ => ?_
    constructor
    · rintro ⟨way, earlier, later, heq, hstate⟩
      exact ⟨way.val, earlier, later, way.property, heq, leavesUnassigned_false.1 hstate⟩
    · rintro ⟨before, earlier, later, hpath, heq, hstate⟩
      exact ⟨⟨before, hpath⟩, earlier, later, heq, leavesUnassigned_false.2 hstate⟩
  · constructor
    · intro hv
      obtain ⟨way, hway⟩ := (hjustified n).unassigned hv
      exact ⟨way.val, way.property, hway⟩
    · rintro ⟨before, hpath, hv⟩
      exact mem_unassigned_of_way hsolved ⟨before, hpath⟩ hv

/-- A pointer to storage. -/
def pointer : Variable := ⟨.ofNat 1, 0, .ofNat 7, "p", .storage, ⟨none, .ofNat 0, .ofNat 9⟩⟩

/-- An access to the pointer, in the middle of a loop. -/
def accessInLoop : Occurrence := ⟨⟨1, 0⟩, Touch.access.number, pointer, none⟩

/-- A flow that declares a pointer and accesses it in a loop, which assigns it on the way back. -/
def retryFlow : Flow where
  functionId := .ofNat 1
  name := "retry"
  size := 4
  nodes := [⟨[⟨⟨0, 0⟩, Touch.declaration.number, pointer, none⟩], [1]⟩, ⟨[accessInLoop], [2, 3]⟩,
    ⟨[⟨⟨2, 0⟩, Touch.assignment.number, pointer, none⟩], [1]⟩, ⟨[], []⟩]
  length_nodes := rfl
  entry := 0
  exit := 3

/-- The access is reported: the first time around, nothing has assigned the pointer. -/
theorem retryFlow_reports_access :
    retryFlow.HasKnownKinds ∧ ∃ r, run retryFlow .fifo = .ok r ∧ accessInLoop ∈ r.accesses := by
  have hknown : retryFlow.HasKnownKinds := by
    intro (n : Fin 4) _
    match n with
    | 0 => exact List.forall_mem_singleton.2 ⟨.declaration, rfl⟩
    | 1 => exact List.forall_mem_singleton.2 ⟨.access, rfl⟩
    | 2 => exact List.forall_mem_singleton.2 ⟨.assignment, rfl⟩
    | 3 => exact List.forall_mem_nil _
  obtain ⟨r, hrun, haccesses, -⟩ := run_exact retryFlow .fifo hknown
  have hpath : retryFlow.IsPath (([0, 1] : List (Fin 4)) ++ [(3 : Fin 4)]) :=
    ⟨rfl, .cons_cons List.mem_cons_self
      (.cons_cons (List.mem_cons_of_mem _ List.mem_cons_self) (.singleton _))⟩
  have haccess : accessInLoop.touch? = some .access := Touch.ofNumber?_number .access
  have hearlier : UnassignedAfter pointer [⟨⟨0, 0⟩, Touch.declaration.number, pointer, none⟩] := by
    simp [UnassignedAfter, settlingTouch, Occurrence.touch?, Touch.ofNumber?_number]
  exact ⟨hknown, r, hrun, (haccesses accessInLoop).2 ⟨haccess, rfl, _, _, [], hpath, rfl, hearlier⟩⟩

end Analysis

end StorageFlow
