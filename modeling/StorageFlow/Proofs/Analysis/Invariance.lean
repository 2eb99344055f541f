/-
# StorageFlow.Proofs.Analysis.Invariance — reports do not depend on how a flow is cut into nodes.

Restructuring a flow changes positions, the contents of the worklist and the number of steps.  It does not change
which histories lead through the flow, and the analysis is exact for these; so the same accesses are reported.  That
the analysis does not fail is kept as well, because the occurrences that can happen stay the same.
-/
import StorageFlow.Proofs.Analysis.Meaning
import StorageFlow.Proofs.Flow.Restructuring

namespace StorageFlow

variable {flow other : Flow}

namespace Flow

/-- Whether kinds are known is a question about the occurrences that can happen. -/
theorem hasKnownKinds_iff : flow.HasKnownKinds ↔ ∀ o, flow.Performs o → ∃ t : Touch, o.kind = t.number := by
  constructor
  · rintro h o ⟨n, hn, ho⟩
    exact h n hn o ho
  · intro h n hn o ho
    exact h o ⟨n, hn, ho⟩

theorem Alike.hasKnownKinds (h : flow.Alike other) (hknown : flow.HasKnownKinds) : other.HasKnownKinds := by
  rw [hasKnownKinds_iff] at hknown ⊢
  intro o ho
  exact hknown o ((h.performs_iff o).2 ho)

end Flow

namespace Analysis

variable {r : Result flow} {r' : Result other}

/-- The same accesses are reported for flows in which the same happens. -/
theorem mem_accesses_iff_of_alike (h : flow.Alike other) (hr : r.Exact) (hr' : r'.Exact) (o : Occurrence) :
    o ∈ r.accesses ↔ o ∈ r'.accesses := by
  rw [hr.mem_accesses_iff_exists, hr'.mem_accesses_iff_exists]
  simp only [h.after_exit_iff]

/-- **Reports do not depend on the structure of a flow.**  However often nodes are renumbered, exits permuted, nodes
that cannot be reached left out or added, nodes split or pieces joined again, and in whichever order the nodes are
processed, the same accesses are reported. -/
theorem run_restructured (h : Relation.EqvGen Flow.Restructures flow other) (hknown : flow.HasKnownKinds)
    (order order' : Order) :
    ∃ r r', run flow order = .ok r ∧ run other order' = .ok r' ∧ SameUpToTies r.accesses r'.accesses := by
  have halike : flow.Alike other := Flow.alike_of_eqvGen h
  obtain ⟨r, hrun, hr⟩ := exists_exact hknown order
  obtain ⟨r', hrun', hr'⟩ := exists_exact (halike.hasKnownKinds hknown) order'
  refine ⟨r, r', hrun, hrun', ?_⟩
  exact (isReport_accesses hrun).sameUpToTies (isReport_accesses hrun') (mem_accesses_iff_of_alike halike hr hr')

/-- A flow that declares a pointer and accesses it in a loop, and has a node that nothing leads to. -/
def paddedFlow : Flow :=
  .sketch "padded" [
    ([⟨⟨0, 0⟩, Touch.declaration.number, pointer, none⟩], [1]),
    ([accessInLoop], [2, 4]),
    ([⟨⟨2, 0⟩, Touch.assignment.number, pointer, none⟩], [1]),
    ([⟨⟨3, 0⟩, .ofNat 9, pointer, none⟩], [1, 3])]

/-- The places of the other nodes, which are those of `retryFlow`. -/
def placeInPadded : Fin retryFlow.size → Fin paddedFlow.size := (Fin.last 3).castSucc.succAbove

/-- The same flow without the idle node, with the entry cut in two and all nodes listed in reverse. -/
def rearrangedFlow : Flow :=
  ((paddedFlow.select placeInPadded retryFlow.entry retryFlow.exit).split retryFlow.entry 1).renumber Fin.revPerm

theorem reachable_paddedFlow (n : Fin paddedFlow.size) (hn : paddedFlow.Reachable n) : ∃ p, placeInPadded p = n := by
  induction hn with
  | refl => exact ⟨retryFlow.entry, rfl⟩
  | @tail k m _ hm ih =>
      obtain ⟨(p : Fin 4), rfl⟩ := ih
      match p with
      | 0 | 2 => exact ⟨(1 : Fin 4), (List.mem_singleton.1 hm).symm⟩
      | 1 =>
          rcases List.mem_cons.1 hm with rfl | hm
          · exact ⟨(2 : Fin 4), rfl⟩
          · exact ⟨(3 : Fin 4), (List.mem_singleton.1 hm).symm⟩
      | 3 => exact absurd hm List.not_mem_nil

/-- The access in the loop is reported for both flows. -/
theorem paddedFlow_rearranged :
    Relation.EqvGen Flow.Restructures paddedFlow rearrangedFlow ∧ paddedFlow.HasKnownKinds ∧
      ∃ r r', run paddedFlow .lifo = .ok r ∧ run rearrangedFlow .fifo = .ok r' ∧
        SameUpToTies r.accesses r'.accesses ∧ accessInLoop ∈ r'.accesses := by
  have hremoved : Flow.Restructures paddedFlow (paddedFlow.select placeInPadded retryFlow.entry retryFlow.exit) :=
    .remove paddedFlow placeInPadded _ _ Fin.succAbove_right_injective rfl rfl reachable_paddedFlow
  have hrearranged : Relation.EqvGen Flow.Restructures paddedFlow rearrangedFlow :=
    .trans _ _ _ (.rel _ _ hremoved) (.trans _ _ _ (.rel _ _ (.split _ _ 1)) (.rel _ _ (.renumber _ _)))
  have hknown : paddedFlow.HasKnownKinds := by
    intro n hn
    obtain ⟨(p : Fin 4), rfl⟩ := reachable_paddedFlow n hn
    match p with
    | 0 => exact List.forall_mem_singleton.2 ⟨.declaration, rfl⟩
    | 1 => exact List.forall_mem_singleton.2 ⟨.access, rfl⟩
    | 2 => exact List.forall_mem_singleton.2 ⟨.assignment, rfl⟩
    | 3 => exact List.forall_mem_nil _
  obtain ⟨r, r', hrun, hrun', hsame⟩ := run_restructured hrearranged hknown .lifo .fifo
  have hreported : accessInLoop ∈ r'.accesses ↔ accessInLoop ∈ [accessInLoop] :=
    mem_accesses_iff_of_exit hrun' (by decide +kernel)
  exact ⟨hrearranged, hknown, r, r', hrun, hrun', hsame, hreported.2 List.mem_cons_self⟩

end Analysis

end StorageFlow
