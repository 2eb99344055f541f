/-
# StorageFlow.Proofs.Analysis.Failing — when the analysis fails.

The transfer function has one way to fail: an occurrence of a kind that has no meaning.  Whether it fails at a node
does not depend on the facts that have arrived there, so the analysis fails if and only if a reachable node has such
an occurrence.  One direction is that every failure of a run comes from a node that it processed, and it processes
reachable nodes only.  The other one is that a run which does not fail goes on until it has processed every reachable
node, also one at which nothing new ever arrives; then none of them can have made it fail.

What stands in nodes that cannot be reached is not looked at.  Replacing it changes the bound on the number of steps,
but no step (`run_withOccurrences`).
-/
import StorageFlow.Proofs.Analysis.Invariance
import StorageFlow.Proofs.Solver.Lockstep

namespace StorageFlow

variable {flow : Flow} {order : Order} {failure : Failure}

/-! ## Kinds without a meaning -/

theorem Touch.ofCode?_eq_some_iff {code : Int} {t : Touch} : ofCode? code = some t ↔ code = t.code := by
  constructor
  · intro h
    unfold ofCode? at h
    split_ifs at h <;> cases h <;> assumption
  · rintro rfl
    exact ofCode?_code t

theorem Occurrence.touch?_eq_some_iff {o : Occurrence} {t : Touch} : o.touch? = some t ↔ o.kind = t.number := by
  unfold touch? Touch.ofNumber? Touch.number
  rw [Option.bind_eq_some_iff, ← Number.toInt?_eq_some_iff]
  simp only [Touch.ofCode?_eq_some_iff]
  simp

/-- An occurrence is of none of the kinds that have a meaning. -/
def Occurrence.IsImpossible (o : Occurrence) : Prop := ∀ t : Touch, o.kind ≠ t.number

theorem Occurrence.isImpossible_iff {o : Occurrence} : o.IsImpossible ↔ o.touch? = none := by
  rw [IsImpossible, Option.eq_none_iff_forall_ne_some]
  exact forall_congr' fun t => not_congr touch?_eq_some_iff.symm

/-- How the failure is worded that an occurrence of an impossible kind leads to. -/
theorem Failure.message_impossible (kind : Number) :
    (impossible (.number kind)).message = Text.intercalate "\n"
      ["Internal ptrguard Error:", "Reached impossible case", separator, kind.text, separator,
        "ptrguard Backtrace: Error", callStack, separator, "Using ptrguard 0.3.0"] := rfl

/-! ## Failing at a node -/

namespace Analysis

variable {n : Fin flow.size} {facts out : PointFacts} {os : List Occurrence} {o : Occurrence}

/-- The transfer function fails at an occurrence of an impossible kind, and says of which kind it is. -/
theorem exists_isImpossible_of_transfer (h : transfer facts os = .error failure) :
    ∃ o ∈ os, o.IsImpossible ∧ failure = .impossible (.number o.kind) := by
  induction os generalizing facts with
  | nil => exact absurd h (by simp [transfer])
  | cons o os ih =>
      rw [transfer, applyOccurrence] at h
      cases htouch : o.touch? with
      | none =>
          rw [htouch] at h
          exact ⟨o, List.mem_cons_self, Occurrence.isImpossible_iff.2 htouch, (Except.error.inj h).symm⟩
      | some t =>
          rw [htouch] at h
          obtain ⟨x, hx, himpossible, heq⟩ := ih h
          exact ⟨x, List.mem_cons_of_mem o hx, himpossible, heq⟩

/-- Where the transfer function does not fail, no kind is impossible. -/
theorem not_isImpossible_of_transfer (h : transfer facts os = .ok out) (ho : o ∈ os) : ¬ o.IsImpossible := by
  induction os generalizing facts with
  | nil => exact absurd ho List.not_mem_nil
  | cons x os ih =>
      obtain ⟨t, ht, hrest⟩ := exists_touch_of_transfer_cons h
      rcases List.mem_cons.1 ho with rfl | ho
      · rw [Occurrence.isImpossible_iff, ht]
        simp
      · exact ih hrest ho

/-! ## Failing runs -/

theorem run_eq_error_iff : run flow order = .error failure ↔ (problem flow).solve order = .error failure := by
  unfold run
  cases (problem flow).solve order with
  | error e => simp [Except.map]
  | ok s => simp [Except.map]

/-- A run fails because of a node that it came to. -/
theorem exists_isImpossible_of_run (h : run flow order = .error failure) :
    ∃ n, flow.Reachable n ∧ ∃ o ∈ flow.occurrences n, o.IsImpossible ∧ failure = .impossible (.number o.kind) := by
  have hends := Problem.ends_run (problem_bounded flow) order (Nat.le_refl _)
  rw [run_eq_error_iff, Problem.solve] at h
  cases hrun : (problem flow).run (problem flow).stepBound ((problem flow).start order) with
  | ok final =>
      rw [hrun] at h
      exact absurd h (by simp [Except.map])
  | error e =>
      rw [hrun] at h hends
      obtain rfl : e = failure := Except.error.inj h
      obtain ⟨n, facts, hn, -, htransfer⟩ := hends
      exact ⟨n, hn, exists_isImpossible_of_transfer htransfer⟩

/-- A run that does not fail has processed every node that can be reached. -/
theorem not_isImpossible_of_run {r : Result flow} (h : run flow order = .ok r) (hn : flow.Reachable n)
    (ho : o ∈ flow.occurrences n) : ¬ o.IsImpossible := by
  have hends := Problem.ends_run (problem_bounded flow) order (Nat.le_refl _)
  rw [run, Problem.solve] at h
  cases hrun : (problem flow).run (problem flow).stepBound ((problem flow).start order) with
  | error e =>
      rw [hrun] at h
      exact absurd h (by simp [Except.map])
  | ok final =>
      rw [hrun] at hends
      have hsolved : (problem flow).Solved final.solution := (Problem.invariant_of_run hrun).solved hends
      exact not_isImpossible_of_transfer (hsolved.transferred hn) ho

theorem exists_run_eq_error_iff :
    (∃ failure, run flow order = .error failure) ↔
      ∃ n, flow.Reachable n ∧ ∃ o ∈ flow.occurrences n, o.IsImpossible := by
  constructor
  · rintro ⟨failure, hrun⟩
    obtain ⟨n, hn, o, ho, himpossible, -⟩ := exists_isImpossible_of_run hrun
    exact ⟨n, hn, o, ho, himpossible⟩
  · rintro ⟨n, hn, o, ho, himpossible⟩
    cases hrun : run flow order with
    | error failure => exact ⟨failure, rfl⟩
    | ok r => exact absurd himpossible (not_isImpossible_of_run hrun hn ho)

end Analysis

/-! ## What is never noticed -/

/-- The flow with other occurrences in its nodes. -/
@[reducible] def Flow.withOccurrences (flow : Flow) (occurrences : Fin flow.size → List Occurrence) : Flow :=
  flow.withNodes flow.size (fun p => ⟨occurrences p, flow.exits p⟩) flow.entry flow.exit

namespace Analysis

/-- What a result says: the reported accesses, and what the solver found. -/
def Result.found (r : Result flow) : List Occurrence × Solution (Fin flow.size) PointFacts :=
  (r.accesses, r.solution)

variable {occurrences : Fin flow.size → List Occurrence}

theorem inLockstep_withOccurrences (h : ∀ n, flow.Reachable n → occurrences n = flow.occurrences n) :
    (problem flow).InLockstep (problem (flow.withOccurrences occurrences)) where
  entry := rfl
  transfer n facts hn := by
    show transfer facts (flow.occurrences n) = transfer facts ((flow.withOccurrences occurrences).occurrences n)
    rw [Flow.occurrences_withNodes, h n hn]
  passOn n out s _ := by
    show (flow.exits n).foldl _ s = ((flow.withOccurrences occurrences).exits n).foldl _ s
    rw [Flow.exits_withNodes]

/-- The occurrences in nodes that cannot be reached make no difference. -/
theorem run_withOccurrences (h : ∀ n, flow.Reachable n → occurrences n = flow.occurrences n) (order : Order) :
    (run (flow.withOccurrences occurrences) order).map Result.found = (run flow order).map Result.found := by
  have hsolve : (problem flow).solve order = (problem (flow.withOccurrences occurrences)).solve order :=
    (inLockstep_withOccurrences h).solve_eq (problem_bounded flow)
      (problem_bounded (flow.withOccurrences occurrences)) order
  unfold run
  rw [← hsolve]
  cases (problem flow).solve order with
  | error e => rfl
  | ok s => rfl

/-- **When the analysis fails.**  It fails if and only if some node that can be reached has an occurrence whose kind
is that of no touch, in either order; the failure is the defect of an impossible case and names the kind of such an
occurrence.  The occurrences in nodes that cannot be reached change neither the failure nor anything that is found. -/
theorem run_fails_iff (flow : Flow) (order : Order) :
    ((∃ failure, run flow order = .error failure) ↔
      ∃ n, flow.Reachable n ∧ ∃ o ∈ flow.occurrences n, ∀ t : Touch, o.kind ≠ t.number) ∧
    (∀ failure, run flow order = .error failure →
      ∃ n, flow.Reachable n ∧ ∃ o ∈ flow.occurrences n, (∀ t : Touch, o.kind ≠ t.number) ∧
        failure = .impossible (.number o.kind) ∧
        failure.message = Text.intercalate "\n"
          ["Internal ptrguard Error:", "Reached impossible case", Failure.separator, o.kind.text, Failure.separator,
            "ptrguard Backtrace: Error", Failure.callStack, Failure.separator, "Using ptrguard 0.3.0"]) ∧
    (∀ order', (∃ failure, run flow order = .error failure) ↔ ∃ failure, run flow order' = .error failure) ∧
    ∀ occurrences : Fin flow.size → List Occurrence,
      (∀ n, flow.Reachable n → occurrences n = flow.occurrences n) →
        (run (flow.withOccurrences occurrences) order).map Result.found = (run flow order).map Result.found := by
  refine ⟨exists_run_eq_error_iff, fun failure hrun => ?_, fun order' => ?_, fun occurrences h => ?_⟩
  · obtain ⟨n, hn, o, ho, himpossible, rfl⟩ := exists_isImpossible_of_run hrun
    exact ⟨n, hn, o, ho, himpossible, rfl, Failure.message_impossible o.kind⟩
  · exact exists_run_eq_error_iff.trans exists_run_eq_error_iff.symm
  · exact run_withOccurrences h order

/-- A flow with an occurrence of an impossible kind in a loop, and one of another kind in a node that nothing leads
to. -/
def strayFlow : Flow :=
  .sketch "stray" [
    ([⟨⟨0, 0⟩, Touch.declaration.number, pointer, none⟩], [1]),
    ([⟨⟨1, 0⟩, Touch.access.number, pointer, none⟩, ⟨⟨1, 1⟩, .ofNat 9, pointer, none⟩], [0, 3]),
    ([⟨⟨2, 0⟩, .ofInt (-1), pointer, none⟩], [1])]

/-- Its occurrences without those in the node that nothing leads to. -/
def strayOccurrences (n : Fin strayFlow.size) : List Occurrence :=
  if n.val = 2 then [] else strayFlow.occurrences n

theorem ne_of_reachable_strayFlow {n : Fin strayFlow.size} (hn : strayFlow.Reachable n) : n.val ≠ 2 := by
  have hedges : ∀ k m : Fin strayFlow.size, k.val ≠ 2 → m ∈ strayFlow.exits k → m.val ≠ 2 := by decide +kernel
  induction hn with
  | refl => exact Nat.zero_ne_add_one 1
  | @tail k m _ hm ih => exact hedges k m ih hm

/-- The failure names the kind in the loop, whether or not the other one is there. -/
theorem strayFlow_fails :
    (∃ n, strayFlow.Reachable n ∧ ∃ o ∈ strayFlow.occurrences n, ∀ t : Touch, o.kind ≠ t.number) ∧
      (∀ n, strayFlow.Reachable n → strayOccurrences n = strayFlow.occurrences n) ∧
      (∃ failure, run strayFlow .fifo = .error failure) ∧
      run strayFlow .lifo = .error (.impossible (.number (.ofNat 9))) ∧
      (run (strayFlow.withOccurrences strayOccurrences) .lifo).map Result.found =
        .error (.impossible (.number (.ofNat 9))) := by
  obtain ⟨hiff, hnames, hsame, hunnoticed⟩ := run_fails_iff strayFlow .lifo
  have himpossible (t : Touch) : Number.ofNat 9 ≠ t.number := by
    refine fun h => ?_
    have hcode : (9 : Int) = t.code := Number.ofInt_inj.1 h
    cases t <;> exact absurd hcode (by decide)
  have hkinds : ∀ n : Fin strayFlow.size, n.val ≠ 2 → ∀ o ∈ strayFlow.occurrences n,
      o.kind ∈ [Touch.declaration.number, Touch.access.number, .ofNat 9] := by decide +kernel
  have hloop : strayFlow.Reachable (1 : Fin 4) :=
    Relation.ReflTransGen.refl.tail (List.mem_singleton.2 rfl)
  have hstray : ∃ n, strayFlow.Reachable n ∧ ∃ o ∈ strayFlow.occurrences n, ∀ t : Touch, o.kind ≠ t.number :=
    ⟨(1 : Fin 4), hloop, _, List.mem_cons_of_mem _ List.mem_cons_self, himpossible⟩
  have hkept (n : Fin strayFlow.size) (hn : strayFlow.Reachable n) :
      strayOccurrences n = strayFlow.occurrences n := if_neg (ne_of_reachable_strayFlow hn)
  obtain ⟨failure, hrun⟩ := hiff.2 hstray
  have hfailure : failure = .impossible (.number (.ofNat 9)) := by
    obtain ⟨n, hn, o, ho, hkind, hnamed, -⟩ := hnames failure hrun
    have hlisted := hkinds n (ne_of_reachable_strayFlow hn) o ho
    have hnine : o.kind = .ofNat 9 := by
      simpa [hkind .declaration, hkind .access] using hlisted
    rw [hnamed, hnine]
  rw [hfailure] at hrun
  refine ⟨hstray, hkept, (hsame .fifo).1 ⟨_, hrun⟩, hrun, ?_⟩
  rw [hunnoticed strayOccurrences hkept, hrun]
  rfl

end Analysis

end StorageFlow
