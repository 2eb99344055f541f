/-
# StorageFlow.Proofs.Flow.Simplification — an edge that is recorded twice is an edge.

A flow may list a successor of a node more than once; a builder never makes such a flow, because it ignores an edge
that it has already.  `Flow.simplify` does to a whole flow what a builder does while edges are recorded
(`foldlM_addEdge`).  The solver cannot tell the difference, not even by its counters: it is in lock-step on the two
flows.

Main statement: `simplify_invisible` — edges that are recorded again leave every run as it is.
-/
import StorageFlow.Proofs.Flow.Building
import StorageFlow.Proofs.Flow.Restructuring
import StorageFlow.Proofs.Solver.Lockstep
import StorageFlow.Proofs.Solver.SetProblem

namespace StorageFlow.Flow

/-! ## Every edge once -/

/-- The flow with every edge once, in the order of first use. -/
@[reducible] def simplify (flow : Flow) : Flow :=
  flow.withNodes flow.size (fun p => ⟨flow.occurrences p, (flow.exits p).eraseDups⟩) flow.entry flow.exit

theorem exits_simplify (flow : Flow) (n : Fin flow.size) : flow.simplify.exits n = (flow.exits n).eraseDups :=
  exits_withNodes n

/-- Edges that are drawn one after the other, from the node behind those that are finished. -/
theorem Builder.foldlM_addEdge {functionId : Number} {name : Text} {done rest : List OpenNode}
    (os : List Occurrence) (edges targets : List Number) :
    targets.foldlM (fun (b : Builder) target => b.addEdge (.ofNat done.length) target)
        ⟨functionId, name, done ++ ⟨os, edges⟩ :: rest⟩ =
      (.ok ⟨functionId, name, done ++ ⟨os, targets.foldl recordEdge edges⟩ :: rest⟩ : Except Failure Builder) := by
  induction targets generalizing edges with
  | nil => rfl
  | cons target targets ih =>
      rw [List.foldlM_cons, addEdge_here, ok_bind, ih]
      rfl

/-- A builder that is given the edges of a node keeps those that the simplified flow has. -/
theorem Builder.foldlM_addEdge_exits (flow : Flow) (n : Fin flow.size) {functionId : Number} {name : Text}
    {done rest : List OpenNode} (os : List Occurrence) :
    ((flow.exits n).map fun m => Number.ofNat m.val).foldlM
        (fun (b : Builder) target => b.addEdge (.ofNat done.length) target)
        ⟨functionId, name, done ++ ⟨os, []⟩ :: rest⟩ =
      (.ok ⟨functionId, name,
        done ++ ⟨os, (flow.simplify.exits n).map fun m => Number.ofNat m.val⟩ :: rest⟩ : Except Failure Builder) := by
  have hinjective : Function.Injective fun m : Fin flow.size => Number.ofNat m.val :=
    Number.ofNat_injective.comp Fin.val_injective
  rw [foldlM_addEdge, foldl_recordEdge, eraseDups_map_of_injective hinjective, exits_simplify]

/-! ## The solver on both flows -/

section Solver

variable {α : Type} [DecidableEq α] {flow : Flow} {domain : FiniteSet α}
  {f : Fin flow.size → FiniteSet α → FiniteSet α}

theorem inLockstep_simplify (flow : Flow) (domain : FiniteSet α) (f : Fin flow.size → FiniteSet α → FiniteSet α) :
    (flow.setProblem domain f).InLockstep (flow.simplify.setProblem domain f) :=
  Problem.inLockstep_of_eraseDups rfl (fun _ _ => rfl) flow.exits_simplify

/-- **Edges that are recorded again are invisible.**  After any number of steps the two runs are in the same state,
so they have the same solution, with the same counters. -/
theorem simplify_invisible (flow : Flow) (domain : FiniteSet α) (f : Fin flow.size → FiniteSet α → FiniteSet α)
    (hf : flow.StaysWithin f domain) (order : Order) :
    (∀ steps, (flow.simplify.setProblem domain f).run steps ((flow.simplify.setProblem domain f).start order) =
      (flow.setProblem domain f).run steps ((flow.setProblem domain f).start order)) ∧
    (∃ s, (flow.setProblem domain f).solve order = .ok s ∧ (flow.simplify.setProblem domain f).solve order = .ok s ∧
      flow.IsFixpoint f s) ∧
    (∀ n, flow.simplify.occurrences n = flow.occurrences n ∧ flow.simplify.exits n = (flow.exits n).eraseDups) ∧
    ∀ (n : Fin flow.size) (functionId : Number) (name : Text) (done rest : List OpenNode) (os : List Occurrence),
      ((flow.exits n).map fun m => Number.ofNat m.val).foldlM
          (fun (b : Builder) target => b.addEdge (.ofNat done.length) target)
          ⟨functionId, name, done ++ ⟨os, []⟩ :: rest⟩ =
        (.ok ⟨functionId, name, done ++ ⟨os, (flow.simplify.exits n).map fun m => Number.ofNat m.val⟩ :: rest⟩ :
          Except Failure Builder) := by
  have hlockstep := inLockstep_simplify flow domain f
  refine ⟨fun steps => (hlockstep.run_eq order steps).symm, ?_, fun n => ?_, ?_⟩
  · obtain ⟨final, hruns, -⟩ := setProblem_terminates flow domain f hf
    obtain ⟨-, -, hsolve, hfixpoint⟩ := hruns order
    refine ⟨(final order).solution, hsolve, ?_, hfixpoint⟩
    rw [← hlockstep.solve_eq (setProblem_bounded hf) (setProblem_bounded hf) order, hsolve]
  · exact ⟨occurrences_withNodes n, exits_simplify flow n⟩
  · exact fun n _ _ _ _ os => Builder.foldlM_addEdge_exits flow n os

end Solver

/-- A flow in which two nodes lead to each other and to themselves, with repetitions between the other edges. -/
def knottedFlow : Flow where
  functionId := .ofNat 1
  name := "knotted"
  size := 3
  nodes := [⟨[], [1, 0, 1, 0, 2]⟩, ⟨[], [1, 0, 1, 2]⟩, ⟨[], []⟩]
  length_nodes := rfl
  entry := 0
  exit := 2

/-- The knot can be simplified, and it takes as much work as before to solve it. -/
theorem knottedFlow_simplified :
    knottedFlow.StaysWithin (fun n before => before.insert n.val) (.ofList [0, 1, 2]) ∧
      (∀ n, knottedFlow.simplify.exits n = knottedFlow.exits n ↔ n.val = 2) ∧
      ∃ s, (knottedFlow.setProblem (.ofList [0, 1, 2]) fun n before => before.insert n.val).solve .lifo = .ok s ∧
        (knottedFlow.simplify.setProblem (.ofList [0, 1, 2]) fun n before => before.insert n.val).solve .lifo =
          .ok s ∧
        s.iterations = 7 ∧ s.growthEvents = 6 := by
  have hnodes : ∀ n : Fin knottedFlow.size, n.val ∈ FiniteSet.ofList [0, 1, 2] := by decide
  have hwithin : knottedFlow.StaysWithin (fun n before => before.insert n.val) (.ofList [0, 1, 2]) := by
    intro n before hbefore x hx
    rcases FiniteSet.mem_insert.1 hx with hx | rfl
    · exact hbefore x hx
    · exact hnodes n
  obtain ⟨-, ⟨s, hs, hsimplified, -⟩, hedges, -⟩ :=
    simplify_invisible knottedFlow (.ofList [0, 1, 2]) (fun n before => before.insert n.val) hwithin .lifo
  have hrepeated : ∀ n : Fin knottedFlow.size, (knottedFlow.exits n).eraseDups = knottedFlow.exits n ↔ n.val = 2 := by
    decide
  have hwork : ((knottedFlow.setProblem (.ofList [0, 1, 2]) fun n before => before.insert n.val).solve
      .lifo).toOption.map (fun s => (s.iterations, s.growthEvents)) = some (7, 6) := by decide +kernel
  rw [hs] at hwork
  obtain ⟨hiterations, hgrowth⟩ := Prod.mk.inj (Option.some.inj hwork)
  exact ⟨hwithin, fun n => (hedges n).2 ▸ hrepeated n, s, hs, hsimplified, hiterations, hgrowth⟩

end StorageFlow.Flow
