/-
# StorageFlow.Proofs.Analysis.Monotonicity — a coarser flow never hides a report.

Whoever builds a flow may not know which edges can be taken, or whether a statement assigns a variable.  Erring on
one side is safe: `IsRelaxedTo` says that a flow over the same nodes has all edges of another one, and possibly more,
and that nothing but assignments and mentions in inline code is missing in its nodes.  Whatever the analysis finds
for a flow, it also finds for a relaxed one.

Every history of a flow is, but for forgotten assignments, a history of the relaxed flow (`exists_before`).
Forgetting an assignment can only move the last settling touch of a variable back to a declaration, never away from
one (`leavesUnassigned_of_forgets`).
-/
import StorageFlow.Proofs.Analysis.Meaning

namespace StorageFlow

/-- A list of occurrences is another one in which some assignments and mentions in inline code are missing. -/
inductive Forgets : List Occurrence → List Occurrence → Prop
  | nil : Forgets [] []
  | keep {o : Occurrence} {os fewer : List Occurrence} : Forgets os fewer → Forgets (o :: os) (o :: fewer)
  | forget {o : Occurrence} {os fewer : List Occurrence} :
      o.touch? = some .assignment ∨ o.touch? = some .inlineReference → Forgets os fewer → Forgets (o :: os) fewer

namespace Forgets

variable {xs ys os fewer : List Occurrence}

theorem refl (os : List Occurrence) : Forgets os os := by
  induction os with
  | nil => exact .nil
  | cons o os ih => exact .keep ih

theorem append (h : Forgets xs ys) (h' : Forgets os fewer) : Forgets (xs ++ os) (ys ++ fewer) := by
  induction h with
  | nil => exact h'
  | keep _ ih => exact .keep ih
  | forget ho _ ih => exact .forget ho ih

end Forgets

namespace Flow

/-- A flow over the same nodes has at least the edges of another one, and in its nodes nothing but assignments and
mentions in inline code is missing. -/
structure IsRelaxedTo (flow relaxed : Flow) : Prop where
  size_eq : flow.size = relaxed.size
  entry_eq : relaxed.entry = flow.entry.cast size_eq
  exit_eq : relaxed.exit = flow.exit.cast size_eq
  exits {n m : Fin flow.size} : m ∈ flow.exits n → m.cast size_eq ∈ relaxed.exits (n.cast size_eq)
  forgets (n : Fin flow.size) : Forgets (flow.occurrences n) (relaxed.occurrences (n.cast size_eq))

variable {flow relaxed : Flow} {n : Fin flow.size} {os : List Occurrence}

/-- What happens before a node happens there in the relaxed flow too, but for forgotten assignments. -/
theorem IsRelaxedTo.exists_before (h : flow.IsRelaxedTo relaxed) (hos : flow.Before n os) :
    ∃ fewer, relaxed.Before (n.cast h.size_eq) fewer ∧ Forgets os fewer := by
  induction hos with
  | entry => exact ⟨[], h.entry_eq ▸ .entry, .nil⟩
  | @edge k m os _ hm ih =>
      obtain ⟨fewer, hfewer, hforgets⟩ := ih
      exact ⟨_, hfewer.edge (h.exits hm), hforgets.append (h.forgets k)⟩

theorem IsRelaxedTo.exists_after (h : flow.IsRelaxedTo relaxed) (hos : flow.After n os) :
    ∃ fewer, relaxed.After (n.cast h.size_eq) fewer ∧ Forgets os fewer := by
  obtain ⟨earlier, hearlier, rfl⟩ := hos
  obtain ⟨fewer, hfewer, hforgets⟩ := h.exists_before hearlier
  exact ⟨_, hfewer.after, hforgets.append (h.forgets n)⟩

end Flow

namespace Analysis

variable {v : Variable} {o : Occurrence} {os fewer : List Occurrence}

/-! ## Forgotten assignments -/

/-- An assignment or a mention in inline code leaves no variable unassigned that was not unassigned before. -/
theorem entering_of_leavesUnassigned {entering : Prop}
    (ho : o.touch? = some .assignment ∨ o.touch? = some .inlineReference)
    (h : LeavesUnassigned v entering [o]) : entering := by
  rcases h with hsettled | ⟨-, hentering⟩
  · rw [(subject_and_touch?_of_settlingTouch (lastSettling_singleton.symm.trans hsettled)).2] at ho
    exact absurd ho (by simp)
  · exact hentering

/-- What is left unassigned is still left so without some assignments. -/
theorem leavesUnassigned_of_forgets {entering more : Prop} (h : Forgets os fewer) (himp : entering → more)
    (hleaves : LeavesUnassigned v entering os) : LeavesUnassigned v more fewer := by
  induction h generalizing entering more with
  | nil => exact hleaves.imp himp
  | keep _ ih =>
      rw [leavesUnassigned_cons] at hleaves ⊢
      exact ih (LeavesUnassigned.imp himp) hleaves
  | forget ho _ ih =>
      rw [leavesUnassigned_cons] at hleaves
      exact ih (fun hentering => himp (entering_of_leavesUnassigned ho hentering)) hleaves

/-- An access that finds its variable unassigned still does without some assignments. -/
theorem exposes_of_forgets {state more : Variable → Prop} (h : Forgets os fewer) (haccess : o.touch? = some .access)
    (himp : ∀ v, state v → more v) (hexposed : Exposes state os o) : Exposes more fewer o := by
  induction h generalizing state more with
  | nil => exact absurd hexposed not_exposes_nil
  | keep _ ih =>
      rw [exposes_cons] at hexposed ⊢
      refine hexposed.imp (And.imp_right (himp _)) fun hlater => ?_
      exact ih (fun v => LeavesUnassigned.imp (himp v)) hlater
  | forget ho _ ih =>
      rcases exposes_cons.1 hexposed with ⟨rfl, -⟩ | hlater
      · rw [haccess] at ho
        exact absurd ho (by simp)
      · exact ih (fun v hentering => himp v (entering_of_leavesUnassigned ho hentering)) hlater

/-! ## Results -/

/-- What a result says of a flow is also said by a result for another flow with as many nodes. -/
structure Result.IncludedIn {flow relaxed : Flow} (hsize : flow.size = relaxed.size) (r : Result flow)
    (more : Result relaxed) : Prop where
  isVisited (n : Fin flow.size) :
    r.solution.isVisited n = true → more.solution.isVisited (n.cast hsize) = true
  inState (n : Fin flow.size) : leq (r.solution.inState n) (more.solution.inState (n.cast hsize)) = true
  outState (n : Fin flow.size) : leq (r.solution.outState n) (more.solution.outState (n.cast hsize)) = true
  accesses (o : Occurrence) : o ∈ r.accesses → o ∈ more.accesses

/-- Facts about histories are included in facts about histories that forget assignments. -/
theorem SumsUp.leq_of_forgets {facts more : PointFacts} {History Relaxed : List Occurrence → Prop}
    (hfacts : SumsUp facts History) (hmore : SumsUp more Relaxed)
    (h : ∀ os, History os → ∃ fewer, Relaxed fewer ∧ Forgets os fewer) : leq facts more = true := by
  refine Facts.isSubset_iff.2 ⟨fun v hv => ?_, fun o ho => ?_⟩
  · obtain ⟨os, hos, hunassigned⟩ := (hfacts.mem_unassigned_iff v).1 hv
    obtain ⟨fewer, hfewer, hforgets⟩ := h os hos
    refine (hmore.mem_unassigned_iff v).2 ⟨fewer, hfewer, ?_⟩
    rw [← leavesUnassigned_false] at hunassigned ⊢
    exact leavesUnassigned_of_forgets hforgets id hunassigned
  · obtain ⟨os, hos, haccess, hexposed⟩ := (hfacts.mem_accesses_iff o).1 ho
    obtain ⟨fewer, hfewer, hforgets⟩ := h os hos
    exact (hmore.mem_accesses_iff o).2
      ⟨fewer, hfewer, haccess, exposes_of_forgets hforgets haccess.1 (fun _ => id) hexposed⟩

/-- **A coarser flow never hides a report.**  If a flow is relaxed, by more edges or by leaving out assignments and
mentions in inline code, then every node that was visited still is, the facts before and after every node are
included in those for the relaxed flow, and every reported access is still reported.  Both flows may be processed in
any order. -/
theorem run_included_in_relaxed {flow relaxed : Flow} (h : flow.IsRelaxedTo relaxed)
    (hknown : flow.HasKnownKinds) (hknown' : relaxed.HasKnownKinds) (order order' : Order) :
    ∃ r more, run flow order = .ok r ∧ run relaxed order' = .ok more ∧ r.IncludedIn h.size_eq more := by
  obtain ⟨r, hrun, hr⟩ := exists_exact hknown order
  obtain ⟨more, hrun', hmore⟩ := exists_exact hknown' order'
  have hout (n : Fin flow.size) :
      leq (r.solution.outState n) (more.solution.outState (n.cast h.size_eq)) = true :=
    (hr.outState n).leq_of_forgets (hmore.outState _) fun _ => h.exists_after
  refine ⟨r, more, hrun, hrun', fun n hn => ?_, fun n => ?_, hout, fun o ho => ?_⟩
  · obtain ⟨os, hos⟩ := (hr.isVisited_iff n).1 hn
    obtain ⟨fewer, hfewer, -⟩ := h.exists_before hos
    exact (hmore.isVisited_iff _).2 ⟨fewer, hfewer⟩
  · exact (hr.inState n).leq_of_forgets (hmore.inState _) fun _ => h.exists_before
  · have hexit : o ∈ (more.solution.outState (flow.exit.cast h.size_eq)).accesses :=
      (Facts.isSubset_iff.1 (hout flow.exit)).2 o ((hr.mem_accesses_iff o).1 ho)
    rw [hmore.mem_accesses_iff, h.exit_eq]
    exact hexit

/-- An access to the pointer, after the loop. -/
def accessAtEnd : Occurrence := ⟨⟨3, 0⟩, Touch.access.number, pointer, none⟩

/-- A flow that declares a pointer, accesses and assigns it in a loop, and accesses it again. -/
def cautiousFlow : Flow :=
  .sketch "update" [
    ([⟨⟨0, 0⟩, Touch.declaration.number, pointer, none⟩], [1]),
    ([accessInLoop], [2]),
    ([⟨⟨2, 0⟩, Touch.assignment.number, pointer, none⟩], [1, 3]),
    ([accessAtEnd], [4])]

/-- The same flow, with the assignment taken for none and a way around the loop. -/
def rashFlow : Flow :=
  .sketch "update" [
    ([⟨⟨0, 0⟩, Touch.declaration.number, pointer, none⟩], [3, 1]),
    ([accessInLoop], [2]),
    ([], [1, 3]),
    ([accessAtEnd], [4])]

/-- The access in the loop is reported for both flows, the one after the loop for the second flow only. -/
theorem cautiousFlow_included_in_rashFlow :
    ∃ h : cautiousFlow.IsRelaxedTo rashFlow, cautiousFlow.HasKnownKinds ∧ rashFlow.HasKnownKinds ∧
      ∃ r more, run cautiousFlow .lifo = .ok r ∧ run rashFlow .fifo = .ok more ∧ r.IncludedIn h.size_eq more ∧
        accessInLoop ∈ more.accesses ∧ accessAtEnd ∈ more.accesses ∧ accessAtEnd ∉ r.accesses := by
  have hexits (n m : Fin 5) (hm : m ∈ cautiousFlow.exits n) : m ∈ rashFlow.exits n := by
    match n with
    | 0 => exact List.mem_cons_of_mem _ hm
    | 1 | 2 | 3 | 4 => exact hm
  have hforgets (n : Fin 5) : Forgets (cautiousFlow.occurrences n) (rashFlow.occurrences n) := by
    match n with
    | 0 | 1 | 3 | 4 => exact .refl _
    | 2 => exact .forget (.inl (Touch.ofNumber?_number .assignment)) .nil
  have hrelaxed : cautiousFlow.IsRelaxedTo rashFlow := ⟨rfl, rfl, rfl, hexits _ _, hforgets⟩
  have hknown : cautiousFlow.HasKnownKinds :=
    Flow.hasKnownKinds_of_allOccurrences (by decide +kernel)
  have hknown' : rashFlow.HasKnownKinds :=
    Flow.hasKnownKinds_of_allOccurrences (by decide +kernel)
  obtain ⟨r, more, hrun, hrun', hincluded⟩ := run_included_in_relaxed hrelaxed hknown hknown' .lifo .fifo
  have hreported (o : Occurrence) : o ∈ r.accesses ↔ o ∈ [accessInLoop] :=
    mem_accesses_iff_of_exit hrun (by decide +kernel)
  have hreported' (o : Occurrence) : o ∈ more.accesses ↔ o ∈ [accessAtEnd, accessInLoop] :=
    mem_accesses_iff_of_exit hrun' (by decide +kernel)
  have hloop : accessInLoop ∈ r.accesses := (hreported _).2 List.mem_cons_self
  refine ⟨hrelaxed, hknown, hknown', r, more, hrun, hrun', hincluded, hincluded.accesses _ hloop, ?_, ?_⟩
  · exact (hreported' _).2 List.mem_cons_self
  · rw [hreported]
    decide +kernel

end Analysis

end StorageFlow
