/-
# StorageFlow.Proofs.Flow.Lookup — in a flow that was assembled, every look-up succeeds.

A flow was described with numbers, and who follows a number looks a node up, which fails if there is none.  The
solver works with positions and has nothing to look up.  `lookupProblem` is the same problem for a solver that has
numbers only: it looks up every node that it takes and then all successors of this node.  Numbers are nothing but
other names of the positions (`isRenamed_lookupProblem`), so both solvers do the same, and the look-ups succeed as
long as a run may take.

Main statement: `assemble_validates` — which flows can be assembled, what is reported of the others, and that
nothing is missing in a flow.
-/
import StorageFlow.Proofs.Flow.Assembly
import StorageFlow.Proofs.Solver.Renaming
import StorageFlow.Proofs.Solver.Transition

namespace StorageFlow.Flow

variable {flow : Flow} {functionId : Number} {name : Text} {drafts : List NodeDraft} {entry exit : Number}

/-! ## Look-ups -/

/-- The entry, looked up by its number. -/
def getEntry (flow : Flow) : Except Failure (Fin flow.size) := flow.mustGet (numberOf flow.entry)

/-- The successors of a node, looked up by their numbers. -/
def getSuccessors (flow : Flow) (p : Fin flow.size) : Except Failure (List (Fin flow.size)) :=
  ((flow.exits p).map numberOf).mapM flow.mustGet

theorem mustGet_eq_ok_iff {index : Number} {p : Fin flow.size} :
    flow.mustGet index = .ok p ↔ index = numberOf p := by
  rw [mustGet, get?, numberOf, ← position?_eq_some_iff]
  cases position? flow.size index with
  | none => simp
  | some q => simp

theorem mustGet_numberOf (p : Fin flow.size) : flow.mustGet (numberOf p) = .ok p := mustGet_eq_ok_iff.2 rfl

theorem mapM_mustGet (ps : List (Fin flow.size)) : (ps.map numberOf).mapM flow.mustGet = .ok ps := by
  induction ps with
  | nil => rfl
  | cons p ps ih =>
      rw [List.map_cons, List.mapM_cons, mustGet_numberOf, ok_bind, ih]
      rfl

theorem getEntry_eq (flow : Flow) : flow.getEntry = .ok flow.entry := mustGet_numberOf flow.entry

theorem getSuccessors_eq (p : Fin flow.size) : flow.getSuccessors p = .ok (flow.exits p) := mapM_mustGet _

/-! ## Solving with look-ups -/

section Solver

variable {σ : Type}

/-- A problem on the nodes of a flow.  That of the analysis is one of them, and so is every `setProblem`. -/
def problem (flow : Flow) (transfer : Fin flow.size → σ → Except Failure σ) (height : Nat) :
    Problem (Fin flow.size) σ Failure where
  entry := flow.entry
  exits := flow.exits
  transfer := transfer
  nodeCount := flow.size
  height := height

/-- The same problem for a solver that knows nodes by their numbers.  It looks up the node that it takes, and after
the transfer function all successors of this node. -/
def lookupProblem (flow : Flow) (transfer : Fin flow.size → σ → Except Failure σ) (height : Nat) :
    Problem Number σ Failure where
  entry := numberOf flow.entry
  exits index := ((flow.get? index).map fun p => (flow.exits p).map numberOf).getD []
  transfer index facts := do
    let p ← flow.mustGet index
    let out ← transfer p facts
    let _ ← flow.getSuccessors p
    return out
  nodeCount := flow.size
  height := height

variable {transfer : Fin flow.size → σ → Except Failure σ} {height : Nat}

/-- Numbers are other names of positions. -/
theorem isRenamed_lookupProblem :
    (flow.problem transfer height).IsRenamed numberOf (flow.lookupProblem transfer height) where
  entry := rfl
  exits p := by
    have hget : flow.get? (numberOf p) = some p := position?_eq_some_iff.2 rfl
    simp [lookupProblem, problem, hget]
  transfer p facts := by
    simp only [lookupProblem, problem, mustGet_numberOf, getSuccessors_eq, ok_bind]
    cases transfer p facts <;> rfl

/-- A transfer function that never fails makes no run fail, whatever is looked up. -/
theorem exists_run_lookupProblem [JoinLattice σ] (htotal : ∀ p facts, ∃ out, transfer p facts = .ok out)
    (order : Order) (steps : Nat) :
    ∃ s, (flow.lookupProblem transfer height).run steps ((flow.lookupProblem transfer height).start order) =
      .ok s := by
  let p := flow.problem transfer height
  obtain ⟨s, hs⟩ : ∃ s, p.run steps (p.start order) = .ok s := Problem.exists_run_of_total htotal steps _
  obtain ⟨t, ht, -⟩ := (isRenamed_lookupProblem.run_endAlike numberOf_injective order steps).exists_ok hs
  exact ⟨t, ht⟩

end Solver

/-! ## Assembled flows -/

/-- Nothing is missing in a flow that was made from a list of nodes. -/
structure FindsAll (flow : Flow) (drafts : List NodeDraft) (entry : Number) : Prop where
  entry_eq : numberOf flow.entry = entry
  getEntry : flow.getEntry = .ok flow.entry
  -- A look-up finds the node at the position that was asked for, and no other.
  mustGet_iff (index : Number) (p : Fin flow.size) : flow.mustGet index = .ok p ↔ index = .ofNat p.val
  -- Every node of the list is found by its index, and so are all of its successors.
  node (i : Nat) (draft : NodeDraft) : drafts[i]? = some draft →
    ∃ p : Fin flow.size, p.val = i ∧ flow.mustGet draft.index = .ok p ∧ flow.occurrences p = draft.occurrences ∧
      draft.exits.mapM flow.mustGet = .ok (flow.exits p)
  getSuccessors (p : Fin flow.size) : flow.getSuccessors p = .ok (flow.exits p)

theorem IsAssembledFrom.findsAll (h : flow.IsAssembledFrom functionId name drafts entry exit)
    (hwell : WellFormed drafts entry exit) : flow.FindsAll drafts entry where
  entry_eq := h.entry_eq
  getEntry := flow.getEntry_eq
  mustGet_iff _ _ := mustGet_eq_ok_iff
  node i draft hdraft := by
    obtain ⟨p, rfl, hnode⟩ := h.exists_node hdraft
    refine ⟨p, rfl, ?_, hnode.occurrences_eq, ?_⟩
    · rw [hwell.index_eq p.val draft hdraft]
      exact mustGet_numberOf p
    · rw [← hnode.exits_eq]
      exact mapM_mustGet _
  getSuccessors p := getSuccessors_eq p

/-- **Assembling validates a list of nodes.**  Exactly the well-formed lists make a flow, and otherwise the first of
their faults is reported as a defect.  In a flow every look-up succeeds, those of a solver included. -/
theorem assemble_validates (functionId : Number) (name : Text) (drafts : List NodeDraft) (entry exit : Number) :
    ((∃ flow, assemble functionId name drafts entry exit = .ok flow) ↔ WellFormed drafts entry exit) ∧
    (∀ failure, assemble functionId name drafts entry exit = .error failure ↔
      (arenaFaults name drafts entry exit).head? = some failure) ∧
    (∀ failure ∈ arenaFaults name drafts entry exit, ∃ defect, failure = .defect defect) ∧
    ∀ flow, assemble functionId name drafts entry exit = .ok flow →
      flow.size = drafts.length ∧ flow.FindsAll drafts entry ∧
      ∀ (σ : Type) [JoinLattice σ] (transfer : Fin flow.size → σ → Except Failure σ) (height : Nat) (order : Order)
        (steps : Nat),
        EndAlike (Problem.State.IsRenamed numberOf)
          ((flow.problem transfer height).run steps ((flow.problem transfer height).start order))
          ((flow.lookupProblem transfer height).run steps ((flow.lookupProblem transfer height).start order)) ∧
        ((∀ p facts, ∃ out, transfer p facts = .ok out) →
          ∃ s, (flow.lookupProblem transfer height).run steps
            ((flow.lookupProblem transfer height).start order) = .ok s) := by
  have hdecides : Decides (fun flow => flow.IsAssembledFrom functionId name drafts entry exit)
    (assemble functionId name drafts entry exit) (arenaFaults name drafts entry exit) := assemble_decides
  have hok := hdecides.isOk_iff.trans arenaFaults_eq_nil_iff
  refine ⟨hok, fun _ => hdecides.error_iff, fun _ => exists_defect_of_mem_arenaFaults, fun flow hflow => ?_⟩
  have hwell : WellFormed drafts entry exit := hok.1 ⟨flow, hflow⟩
  rw [hflow] at hdecides
  refine ⟨hdecides.of_ok.size_eq, hdecides.of_ok.findsAll hwell, fun σ _ transfer height order steps => ⟨?_, ?_⟩⟩
  · exact isRenamed_lookupProblem.run_endAlike numberOf_injective order steps
  · exact fun htotal => exists_run_lookupProblem htotal order steps

/-- Two nodes in a loop, with an edge that is recorded twice and one that leads back to where it starts. -/
def loopDrafts : List NodeDraft := [⟨.ofNat 0, [], [.ofNat 1, .ofNat 1]⟩, ⟨.ofNat 1, [], [.ofNat 1, .ofNat 0]⟩]

/-- The loop is a flow, in which a solver finds every node.  If everything is wrong, the entry is reported first. -/
theorem loopDrafts_validated :
    (∃ flow, assemble (.ofNat 1) "loop" loopDrafts (.ofNat 0) (.ofNat 1) = .ok flow ∧
      flow.FindsAll loopDrafts (.ofNat 0) ∧
      ∀ steps, ∃ s, (flow.lookupProblem (fun p before => .ok (FiniteSet.insert before p.val)) 4).run steps
        ((flow.lookupProblem (fun p before => .ok (FiniteSet.insert before p.val)) 4).start .lifo) = .ok s) ∧
    assemble (.ofNat 1) "loop" loopDrafts.reverse (.ofInt (-1)) (.ofNat 2) =
      .error (.defect (.indexOutOfBounds "loop" .entry (.ofInt (-1)) 2)) := by
  constructor
  · obtain ⟨haccepts, -, -, hflows⟩ := assemble_validates (.ofNat 1) "loop" loopDrafts (.ofNat 0) (.ofNat 1)
    have hnothing : arenaFaults "loop" loopDrafts (.ofNat 0) (.ofNat 1) = [] := List.isEmpty_iff.1 (by decide +kernel)
    obtain ⟨flow, hflow⟩ := haccepts.2 (arenaFaults_eq_nil_iff.1 hnothing)
    obtain ⟨-, hfinds, hruns⟩ := hflows flow hflow
    refine ⟨flow, hflow, hfinds, fun steps => ?_⟩
    exact (hruns _ _ 4 .lifo steps).2 fun p before => ⟨before.insert p.val, rfl⟩
  · obtain ⟨-, hreports, -⟩ := assemble_validates (.ofNat 1) "loop" loopDrafts.reverse (.ofInt (-1)) (.ofNat 2)
    have hentry : ¬ IsPosition loopDrafts.reverse.length (.ofInt (-1)) := by decide +kernel
    rw [hreports, arenaFaults, indexFaults, if_neg hentry]
    rfl

end StorageFlow.Flow
