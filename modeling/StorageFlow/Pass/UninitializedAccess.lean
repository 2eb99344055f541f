/-
# StorageFlow.Pass.UninitializedAccess — reports accesses to unassigned storage pointers.

Writing through a storage pointer that was never assigned overwrites unrelated state variables, and reading
through it returns their values.  The pass analyses every function with a body and records one hard error
for each reported access, which points to the access and, for explanation, to the declaration.
-/
import StorageFlow.Analysis
import StorageFlow.Pass

namespace StorageFlow.Pass.UninitializedAccess

open Program

/-- The identifier of the pass. -/
def id : Text := "UninitializedStorageAccess"

/-- What is reported at an access. -/
def message : Text :=
  "this variable is of storage-pointer type and is accessed without a prior assignment."

/-- What is said at the declaration. -/
def declaredHere : Text := "declared here"

/-- The diagnostic for a reported access. -/
def diagnosticFor (o : Occurrence) : Diagnostic :=
  .hardError id o.location [⟨declaredHere, o.subject.location⟩] message

/-- What is told about the analysis of a flow. -/
def summary (flow : Flow) (r : Analysis.Result flow) : Text :=
  Text.ofNat flow.size ++ " nodes, " ++ Text.ofNat flow.countOccurrences ++ " occurrences: fixpoint after " ++
    Text.ofNat r.solution.iterations ++ " iterations, " ++ Text.ofNat r.solution.growthEvents ++
    " growth events; " ++ Text.ofNat r.accesses.length ++ " uninitialized access(es)"

/-- Analyses a flow, and records a diagnostic for each reported access. -/
def checkFlow (order : Order) (flow : Flow) : Action (List Diagnostic) := do
  let r ← Action.ofExcept (Analysis.run flow order)
  Action.log .debug (summary flow r)
  let ds := r.accesses.map diagnosticFor
  Action.record ds
  return ds

/-- Analyses a function inside a context of its name. -/
def checkFunction (order : Order) (cu : CompilationUnit) (f : FunctionDefinition) :
    Action (List Diagnostic) := do
  let flow ← Action.ofExcept (cu.flowOf f)
  Action.withContext f.name (checkFlow order flow)

/-- Analyses functions one after the other. -/
def checkFunctions (order : Order) (cu : CompilationUnit) :
    List FunctionDefinition → Action (List Diagnostic)
  | [] => return []
  | f :: fs => do
    let first ← checkFunction order cu f
    let others ← checkFunctions order cu fs
    return first ++ others

/-- The pass, which processes nodes in the given order. -/
def pass (order : Order) : Pass where
  id := some id
  check cu := do
    let functions ← Action.ofExcept cu.functions
    checkFunctions order cu functions

end StorageFlow.Pass.UninitializedAccess
