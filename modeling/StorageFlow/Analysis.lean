/-
# StorageFlow.Analysis — accesses to storage pointers that may be unassigned.

A declaration leaves its variable unassigned; an assignment assigns it, and a mention in inline code may
assign it and is taken for an assignment.  An access to a storage pointer that is unassigned at that point
is remembered.  Remembered accesses are carried along every path, and those that arrive at the exit of the
function are reported, in source order.

A variable is unassigned at a point if *some* path to the point leaves it unassigned; whether the path can
be taken is not asked.
-/
import StorageFlow.Facts
import StorageFlow.Flow
import StorageFlow.Solver

namespace StorageFlow

namespace Analysis

/-- What is known at a point of a function. -/
abbrev PointFacts := Facts Variable Occurrence

/-! ## The effect of occurrences -/

/-- The facts after a touch of a known kind. -/
def applyTouch (facts : PointFacts) (o : Occurrence) : Touch → PointFacts
  | .declaration => { facts with unassigned := facts.unassigned.insert o.subject }
  | .assignment => { facts with unassigned := facts.unassigned.erase o.subject }
  | .inlineReference => { facts with unassigned := facts.unassigned.erase o.subject }
  | .access =>
    if o.subject ∈ facts.unassigned ∧ o.subject.isStorageLocated then
      { facts with accesses := facts.accesses.insert o }
    else facts

/-- The facts after an occurrence.  A kind of touch without a meaning is a defect. -/
def applyOccurrence (facts : PointFacts) (o : Occurrence) : Except Failure PointFacts :=
  match o.touch? with
  | some touch => .ok (applyTouch facts o touch)
  | none => .error (.impossible (Json.number o.kind))

/-- The facts after some occurrences, in their order. -/
def transfer (facts : PointFacts) : List Occurrence → Except Failure PointFacts
  | [] => .ok facts
  | o :: os => (applyOccurrence facts o).bind fun facts => transfer facts os

/-! ## The analysis of a function -/

/-- The problem of finding the facts at the nodes of a flow.  Only variables and accesses that occur in the
flow are ever found, so twice the number of its occurrences bounds their number. -/
def problem (flow : Flow) : Problem (Fin flow.size) PointFacts Failure where
  entry := flow.entry
  exits := flow.exits
  transfer p facts := transfer facts (flow.occurrences p)
  nodeCount := flow.size
  height := 2 * flow.countOccurrences

/-- What the analysis of a flow found. -/
structure Result (flow : Flow) where
  -- The reported accesses, in reporting order.
  accesses : List Occurrence
  solution : Solution (Fin flow.size) PointFacts

/-- Occurrences in reporting order; those that cannot be told apart keep their order. -/
def reportingOrder (os : List Occurrence) : List Occurrence :=
  os.mergeSort fun a b => (a.compare b).isLE

/-- Finds the accesses to storage pointers that are unassigned on some path from the entry to the exit. -/
def run (flow : Flow) (order : Order) : Except Failure (Result flow) :=
  ((problem flow).solve order).map fun solution =>
    ⟨reportingOrder (solution.outState flow.exit).accesses.elements, solution⟩

end Analysis

end StorageFlow
