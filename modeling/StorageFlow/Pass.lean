/-
# StorageFlow.Pass — analysis passes.

A pass looks at a compilation unit, records diagnostics, and answers those that it produced.  Whether it was
successful is decided by a policy, which may look at everything recorded so far or at the diagnostics of the
pass alone.
-/
import StorageFlow.Action
import StorageFlow.Program.Unit
import StorageFlow.Settings

namespace StorageFlow

open Program

/-- Decides on success, given everything recorded and what the pass itself produced. -/
def Policy.accepts (policy : Policy) (sink : Diagnostic.Sink) (produced : List Diagnostic) : Bool :=
  match policy with
  | .sink => sink.containsOnlyWarnings
  | .pass => produced.all fun d => !d.isError

/-- An analysis pass. -/
structure Pass where
  -- The identifier of the pass, which its diagnostics carry; only what is no real pass has none.
  id : Option Text
  -- Records the diagnostics for a compilation unit, and answers them.
  check : CompilationUnit → Action (List Diagnostic)

/-- The identifier of a pass for the reader. -/
def Pass.idText (pass : Pass) : Text := pass.id.getD ""

/-- Executes a pass and answers whether it was successful. -/
def Pass.analyze (pass : Pass) (policy : Policy) (cu : CompilationUnit) : Action Bool := do
  let produced ← pass.check cu
  Action.log .debug
    (pass.idText ++ ": " ++ Text.ofNat produced.length ++ " diagnostic(s) in " ++ cu.projectName)
  -- The policy sees what the pass has just recorded, and everything before.
  return policy.accepts (← Action.getSink) produced

end StorageFlow
