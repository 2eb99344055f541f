/-
# StorageFlow.Proofs.Session.Independence — the order of processing does not show.

Two analyses of a flow that process its nodes in different orders come by accesses in different orders, too,
and accesses that tie in the report stay as they were found.  Both find the same accesses, though, because which
ones arrive at the exit is a matter of paths (`mem_accesses_outState_iff`); so the reports are the same up to ties
(`sameUpToTies_accesses`).  In a flow that was loaded an identifier belongs to one variable, so accesses that tie
give the same finding (`finding_eq_of_compare_eq`), and what is found is the same for every order.
-/
import StorageFlow.Proofs.Analysis.Reporting
import StorageFlow.Proofs.Program.Conversion
import StorageFlow.Proofs.Session.Execution

namespace StorageFlow

/-! ## Findings in loaded programs -/

namespace Program

variable {f : PlacedFunction} {order order' : Order} {flow : Flow}

/-- In a flow that was loaded an identifier belongs to one variable. -/
theorem PlacedFunction.HasFlow.identifiesVariables (h : f.HasFlow flow) : flow.IdentifiesVariables := by
  obtain ⟨d, known, -, hconverts⟩ := h.exists_convertsTo
  exact fun _ ho _ hother => (hconverts.subject_eq_iff ho hother).2

/-- Occurrences that tie give the same finding: the rank has the identifier of the variable, and in a flow that was
loaded the identifier leads to the variable. -/
theorem PlacedFunction.HasFlow.finding_eq_of_compare_eq (h : f.HasFlow flow) {o other : Occurrence}
    (ho : o ∈ flow.allOccurrences) (hother : other ∈ flow.allOccurrences) (htie : o.compare other = .eq)
    (name : Text) : finding name o = finding name other := by
  have hrank : o.rank = other.rank := Occurrence.compare_eq_eq_iff.1 htie
  have hsubject : o.subject = other.subject :=
    h.identifiesVariables o ho other hother (congrArg Occurrence.Rank.subject hrank)
  have hsite : o.site.map Site.location = other.site.map Site.location := congrArg Occurrence.Rank.site hrank
  rw [finding, finding, hsubject, hsite]

/-- **What is found in a function is the same for every order.** -/
theorem PlacedFunction.Reports.map_finding_eq {accesses accesses' : List Occurrence}
    (h : f.Reports order accesses) (h' : f.Reports order' accesses') (name : Text) :
    accesses.map (finding name) = accesses'.map (finding name) := by
  obtain ⟨flow, r, hflow, hrun, rfl⟩ := h
  obtain ⟨other, r', hother, hrun', rfl⟩ := h'
  obtain rfl : flow = other := hflow.unique hother
  have hsame : Analysis.SameUpToTies r.accesses r'.accesses := by
    rw [Analysis.accesses_eq_reportingOrder hrun']
    exact Analysis.sameUpToTies_accesses hflow.hasKnownKinds hrun hrun' (.refl _)
  refine hsame.map_eq fun o ho other hother htie => hflow.finding_eq_of_compare_eq ?_ ?_ htie name
  · exact Analysis.mem_allOccurrences_of_mem_accesses hflow.hasKnownKinds hrun ho
  · exact Analysis.mem_allOccurrences_of_mem_accesses hflow.hasKnownKinds hrun hother

/-- What is found in some programs is the same for every order. -/
theorem found_eq {programs : List ProgramDocument} {accesses accesses' : PlacedFunction → List Occurrence}
    (h : ∀ d ∈ programs, ∀ f ∈ d.bodies, f.Reports order (accesses f))
    (h' : ∀ d ∈ programs, ∀ f ∈ d.bodies, f.Reports order' (accesses' f)) (names : List Text) :
    found programs names accesses = found programs names accesses' := by
  rw [found, found]
  refine List.flatMap_congr fun d hd => List.map_congr_left fun name _ => ?_
  have hbodies : (d.bodies.flatMap fun f => (accesses f).map (finding name)) =
      d.bodies.flatMap fun f => (accesses' f).map (finding name) :=
    List.flatMap_congr fun f hf => (h d hd f hf).map_finding_eq (h' d hd f hf) name
  rw [ProgramDocument.foundBy, ProgramDocument.foundBy, hbodies]

end Program

end StorageFlow
