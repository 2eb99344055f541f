/-
# StorageFlow.Proofs.Analysis.Reporting — reports are in order, whatever the order of processing.

The accesses that arrive at the exit are collected in an order that depends on the whole history of merges, and
therefore on the order in which nodes are processed.  A report sorts them, but sorting leaves accesses that tie as
they were collected.  So two reports of one flow need not be equal; they are the same up to ties
(`SameUpToTies`): the same accesses, and ties only where they differ.

What is told about an access depends on its rank and on its variable.  If an identifier belongs to one variable,
then the rank determines both, and what is told is the same for every order.

Main statement: `run_reports_in_order` — reports are sorted, repeat nothing, and are the same up to ties.
-/
import StorageFlow.Proofs.Occurrence.Order
import StorageFlow.Proofs.Pass.Coverage

namespace StorageFlow

/-- In a flow an identifier belongs to one variable. -/
def Flow.IdentifiesVariables (flow : Flow) : Prop :=
  ∀ a ∈ flow.allOccurrences, ∀ b ∈ flow.allOccurrences, a.subject.id = b.subject.id → a.subject = b.subject

namespace Analysis

open Pass.UninitializedAccess (diagnosticFor checkFlow checkFlow_records)

/-! ## Reports that are the same up to ties -/

/-- Two reports have the same occurrences, and where they differ there are ties. -/
structure SameUpToTies (os other : List Occurrence) : Prop where
  perm : os.Perm other
  ties : List.Forall₂ (fun a b => a.compare b = .eq) os other

variable {os other : List Occurrence}

/-- Sorting hides the order of collection up to ties. -/
theorem sameUpToTies_reportingOrder (h : os.Perm other) :
    SameUpToTies (reportingOrder os) (reportingOrder other) := by
  constructor
  · exact (List.mergeSort_perm os _).trans (h.trans (List.mergeSort_perm other _).symm)
  · have hranks := map_rank_reportingOrder h
    rw [← List.forall₂_eq_eq_eq, List.forall₂_map_left_iff, List.forall₂_map_right_iff] at hranks
    exact hranks.imp fun _ _ => Occurrence.compare_eq_eq_iff.2

/-- What is the same for occurrences that tie does not tell two such reports apart. -/
theorem SameUpToTies.map_eq {α : Type} {tell : Occurrence → α} (h : SameUpToTies os other)
    (htell : ∀ a ∈ os, ∀ b ∈ os, a.compare b = .eq → tell a = tell b) : os.map tell = other.map tell := by
  have hlength : os.length = other.length := h.ties.length_eq
  apply List.ext_getElem
  · simpa using hlength
  · intro i hi hi'
    rw [List.length_map] at hi hi'
    rw [List.getElem_map, List.getElem_map]
    apply htell
    · exact List.getElem_mem hi
    · exact h.perm.mem_iff.2 (List.getElem_mem hi')
    · exact h.ties.get hi hi'

/-- A later occurrence in a report does not come before an earlier one. -/
theorem pairwise_compare_reportingOrder (os : List Occurrence) :
    (reportingOrder os).Pairwise fun a b => a.compare b ≠ .gt := by
  refine (pairwise_reportingOrder os).imp fun {a b} h => ?_
  rw [Occurrence.compare_eq_compare_rank]
  exact Ordering.isLE_iff_ne_gt.1 h

/-! ## Reports of one flow -/

section Flow

variable {flow : Flow} {order order' : Order} {r r' : Result flow}

/-- A report lists what arrives at the exit. -/
theorem accesses_eq_reportingOrder (hrun : run flow order = .ok r) :
    r.accesses = reportingOrder (r.solution.outState flow.exit).accesses.elements := by
  rw [run] at hrun
  cases hsolve : (problem flow).solve order with
  | error failure =>
      rw [hsolve] at hrun
      exact absurd hrun (by simp [Except.map])
  | ok s =>
      rw [hsolve] at hrun
      obtain rfl := Except.ok.inj hrun
      rfl

/-- What arrives at the exit in reporting order is reported as it is. -/
theorem accesses_eq_of_pairwise (hrun : run flow order = .ok r) {os : List Occurrence}
    (hexit : (r.solution.outState flow.exit).accesses.elements = os)
    (h : os.Pairwise fun a b => (a.compare b).isLE = true) : r.accesses = os := by
  rw [accesses_eq_reportingOrder hrun, hexit]
  exact List.mergeSort_of_pairwise h

/-- Nothing is reported twice. -/
theorem nodup_accesses (hrun : run flow order = .ok r) : r.accesses.Nodup := by
  rw [accesses_eq_reportingOrder hrun]
  exact (List.mergeSort_perm _ _).nodup_iff.2 (FiniteSet.nodup _)

/-- **Both orders lead to the same accesses at the exit**, found in different orders. -/
theorem perm_accesses_outState (hknown : flow.HasKnownKinds) (hrun : run flow order = .ok r)
    (hrun' : run flow order' = .ok r') :
    (r.solution.outState flow.exit).accesses.elements.Perm
      (r'.solution.outState flow.exit).accesses.elements := by
  obtain ⟨s, hs, hsolved, hjustified⟩ := exists_run hknown order
  obtain ⟨s', hs', hsolved', hjustified'⟩ := exists_run hknown order'
  obtain rfl := Except.ok.inj (hrun.symm.trans hs)
  obtain rfl := Except.ok.inj (hrun'.symm.trans hs')
  have hsame (o : Occurrence) : o ∈ (s.outState flow.exit).accesses ↔ o ∈ (s'.outState flow.exit).accesses := by
    rw [mem_accesses_outState_iff hsolved hjustified, mem_accesses_outState_iff hsolved' hjustified']
  exact (List.perm_ext_iff_of_nodup (FiniteSet.nodup _) (FiniteSet.nodup _)).2 hsame

/-- However the accesses at the exit are listed, sorting them gives the report up to ties. -/
theorem sameUpToTies_accesses (hknown : flow.HasKnownKinds) (hrun : run flow order = .ok r)
    (hrun' : run flow order' = .ok r') {listing : List Occurrence}
    (hlisting : listing.Perm (r'.solution.outState flow.exit).accesses.elements) :
    SameUpToTies r.accesses (reportingOrder listing) := by
  rw [accesses_eq_reportingOrder hrun]
  exact sameUpToTies_reportingOrder ((perm_accesses_outState hknown hrun hrun').trans hlisting.symm)

/-- What is reported occurs in the flow. -/
theorem mem_allOccurrences_of_mem_accesses (hknown : flow.HasKnownKinds) (hrun : run flow order = .ok r)
    {o : Occurrence} (ho : o ∈ r.accesses) : o ∈ flow.allOccurrences := by
  obtain ⟨s, hs, hsolved, hjustified⟩ := exists_run hknown order
  obtain rfl := Except.ok.inj (hrun.symm.trans hs)
  have harrives : o ∈ (s.outState flow.exit).accesses := mem_reportingOrder.1 ho
  obtain ⟨-, way, earlier, later, htrace, -⟩ := (mem_accesses_outState_iff hsolved hjustified).1 harrives
  have hmem : o ∈ flow.trace (way.val ++ [flow.exit]) := by
    rw [htrace]
    exact List.mem_append_right _ List.mem_cons_self
  obtain ⟨p, -, ho⟩ := List.mem_flatMap.1 hmem
  exact Flow.mem_allOccurrences ho

/-- What is told about an access depends on its rank, if the identifier in it leads to the variable. -/
theorem diagnosticFor_eq_of_compare_eq (hflow : flow.IdentifiesVariables) {a b : Occurrence}
    (ha : a ∈ flow.allOccurrences) (hb : b ∈ flow.allOccurrences) (htie : a.compare b = .eq) :
    diagnosticFor a = diagnosticFor b := by
  have hrank : a.rank = b.rank := Occurrence.compare_eq_eq_iff.1 htie
  have hsubject : a.subject = b.subject := hflow a ha b hb (congrArg Occurrence.Rank.subject hrank)
  have hsite : a.site.map Site.location = b.site.map Site.location := congrArg Occurrence.Rank.site hrank
  rw [diagnosticFor, diagnosticFor, a.location_eq_getD, b.location_eq_getD, hsubject, hsite]

/-- What is told about the accesses in a flow does not depend on how they are listed. -/
theorem map_diagnosticFor_eq (hknown : flow.HasKnownKinds) (hflow : flow.IdentifiesVariables)
    (hrun : run flow order = .ok r) {listing : List Occurrence} (h : SameUpToTies r.accesses listing) :
    r.accesses.map diagnosticFor = listing.map diagnosticFor := by
  refine h.map_eq fun a ha b hb htie => ?_
  exact diagnosticFor_eq_of_compare_eq hflow (mem_allOccurrences_of_mem_accesses hknown hrun ha)
    (mem_allOccurrences_of_mem_accesses hknown hrun hb) htie

end Flow

/-- **Reports are in order.**  A report repeats no access, and no access in it comes before an earlier one.
Whatever the order of processing, and however the accesses that arrive at the exit are listed before they are
sorted, the reports are the same up to ties.  If moreover an identifier belongs to one variable, then accesses that
tie give the same diagnostic, and the diagnostics that are recorded for the flow are the same ones in the same
order. -/
theorem run_reports_in_order (flow : Flow) (hknown : flow.HasKnownKinds) :
    (∀ order, ∃ r, run flow order = .ok r ∧ r.accesses.Nodup ∧
      r.accesses.Pairwise fun a b => a.compare b ≠ .gt) ∧
    (∀ order order' r r', run flow order = .ok r → run flow order' = .ok r' →
      SameUpToTies r.accesses r'.accesses ∧
      ∀ listing, listing.Perm (r'.solution.outState flow.exit).accesses.elements →
        SameUpToTies r.accesses (reportingOrder listing)) ∧
    (flow.IdentifiesVariables →
      (∀ a ∈ flow.allOccurrences, ∀ b ∈ flow.allOccurrences, a.compare b = .eq →
        diagnosticFor a = diagnosticFor b) ∧
      ∃ ds, ∀ order, Action.Records (fun told => told = ds) (checkFlow order flow) ds ∧
        ∀ r listing, run flow order = .ok r →
          listing.Perm (r.solution.outState flow.exit).accesses.elements →
            (reportingOrder listing).map diagnosticFor = ds) := by
  refine ⟨fun order => ?_, fun order order' r r' hrun hrun' => ⟨?_, fun listing hlisting => ?_⟩,
    fun hflow => ⟨fun a ha b hb => diagnosticFor_eq_of_compare_eq hflow ha hb, ?_⟩⟩
  · obtain ⟨s, hrun, -⟩ := exists_run hknown order
    exact ⟨_, hrun, nodup_accesses hrun, pairwise_compare_reportingOrder _⟩
  · rw [accesses_eq_reportingOrder hrun']
    exact sameUpToTies_accesses hknown hrun hrun' (.refl _)
  · exact sameUpToTies_accesses hknown hrun hrun' hlisting
  · obtain ⟨s, hrun, -⟩ := exists_run hknown .lifo
    have hsame {order : Order} {r : Result flow} {listing : List Occurrence} (hrun' : run flow order = .ok r)
        (hlisting : listing.Perm (r.solution.outState flow.exit).accesses.elements) :
        (reportingOrder listing).map diagnosticFor = _ :=
      (map_diagnosticFor_eq hknown hflow hrun (sameUpToTies_accesses hknown hrun hrun' hlisting)).symm
    refine ⟨_, fun order => ⟨?_, fun r listing hrun' hlisting => hsame hrun' hlisting⟩⟩
    obtain ⟨s', hrun', -⟩ := exists_run hknown order
    have hrecords := checkFlow_records hrun'
    rwa [accesses_eq_reportingOrder hrun', hsame hrun' (.refl _)] at hrecords

/-- An access to the pointer in one of two branches that come from the same piece of source. -/
def accessInBranch (node : Nat) : Occurrence :=
  ⟨⟨node, 0⟩, Touch.access.number, pointer, some ⟨.ofNat 9, ⟨none, .ofNat 12, .ofNat 13⟩⟩⟩

/-- A flow that declares a pointer and has two branches, each of which accesses it and goes on. -/
def forkFlow : Flow where
  functionId := .ofNat 1
  name := "fork"
  size := 6
  nodes := [⟨[⟨⟨0, 0⟩, Touch.declaration.number, pointer, none⟩], [1, 2]⟩, ⟨[accessInBranch 1], [3]⟩,
    ⟨[accessInBranch 2], [4]⟩, ⟨[], [5]⟩, ⟨[], [5]⟩, ⟨[], []⟩]
  length_nodes := rfl
  entry := 0
  exit := 5

/-- The two accesses tie, and stay in the order in which the branches were processed.  The reports differ then, but
only up to ties, and they tell the same. -/
theorem forkFlow_reports_in_order :
    forkFlow.HasKnownKinds ∧ forkFlow.IdentifiesVariables ∧ ∃ r r', run forkFlow .lifo = .ok r ∧
      run forkFlow .fifo = .ok r' ∧ r.accesses = [accessInBranch 2, accessInBranch 1] ∧
      r'.accesses = [accessInBranch 1, accessInBranch 2] ∧ SameUpToTies r.accesses r'.accesses ∧
      r.accesses.map diagnosticFor = r'.accesses.map diagnosticFor := by
  have hknown : forkFlow.HasKnownKinds := by
    intro (n : Fin 6) _
    match n with
    | 0 => exact List.forall_mem_singleton.2 ⟨.declaration, rfl⟩
    | 1 => exact List.forall_mem_singleton.2 ⟨.access, rfl⟩
    | 2 => exact List.forall_mem_singleton.2 ⟨.access, rfl⟩
    | 3 | 4 | 5 => exact List.forall_mem_nil _
  have hflow : forkFlow.IdentifiesVariables := by
    have hsubject : ∀ o ∈ forkFlow.allOccurrences, o.subject = pointer := by decide +kernel
    intro a ha b hb _
    rw [hsubject a ha, hsubject b hb]
  obtain ⟨hreports, hsame, htold⟩ := run_reports_in_order forkFlow hknown
  obtain ⟨r, hrun, -⟩ := hreports .lifo
  obtain ⟨r', hrun', -⟩ := hreports .fifo
  obtain ⟨hties, ds, hds⟩ := htold hflow
  have hexit : (run forkFlow .lifo).toOption.map
      (fun r => (r.solution.outState forkFlow.exit).accesses.elements) =
        some [accessInBranch 2, accessInBranch 1] := by decide +kernel
  have hexit' : (run forkFlow .fifo).toOption.map
      (fun r => (r.solution.outState forkFlow.exit).accesses.elements) =
        some [accessInBranch 1, accessInBranch 2] := by decide +kernel
  rw [hrun] at hexit
  rw [hrun'] at hexit'
  refine ⟨hknown, hflow, r, r', hrun, hrun', ?_, ?_, (hsame _ _ _ _ hrun hrun').1, ?_⟩
  · exact accesses_eq_of_pairwise hrun (Option.some.inj hexit) (by decide +kernel)
  · exact accesses_eq_of_pairwise hrun' (Option.some.inj hexit') (by decide +kernel)
  · rw [accesses_eq_reportingOrder hrun, accesses_eq_reportingOrder hrun',
      (hds .lifo).2 r _ hrun (.refl _), (hds .fifo).2 r' _ hrun' (.refl _)]

end Analysis

end StorageFlow
