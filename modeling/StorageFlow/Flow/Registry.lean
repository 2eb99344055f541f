/-
# StorageFlow.Flow.Registry — the flows of a program.

Every implemented function of a program has one flow, found by the identifier of the function.  A second
flow for one identifier is a defect, and so is looking for a flow that was not registered.
-/
import StorageFlow.Flow

namespace StorageFlow.Flow

/-- The flows of a program, by the identifiers of their functions. -/
structure Registry where
  flows : Table Number Flow

namespace Registry

/-- The registry without flows. -/
def empty : Registry := ⟨Table.empty⟩

/-- The number of flows. -/
def size (r : Registry) : Nat := r.flows.size

/-- Registers a flow. -/
def register (r : Registry) (flow : Flow) : Except Failure Registry :=
  if r.flows.contains flow.functionId then
    .error (.defect (.duplicateFlow flow.functionId flow.name))
  else .ok ⟨r.flows.set flow.functionId flow⟩

/-- The flow of a function that should have one. -/
def flowOf (r : Registry) (functionId : Number) (name : Text) (location : Option Location) :
    Except Failure Flow :=
  match r.flows.get? functionId with
  | some flow => .ok flow
  | none => .error (.internal (.missingFlow name functionId) location none)

end Registry

end StorageFlow.Flow
