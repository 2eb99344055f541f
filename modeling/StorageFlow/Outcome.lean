/-
# StorageFlow.Outcome — how a run ends.

A run ends with a verdict: nothing was found, something was found, something went wrong, or the passes were
only listed.  In a run whose output is a document, the outcome carries the saved messages along.  Outcomes are
shown as texts or as documents, and each verdict has an exit code.
-/
import StorageFlow.Diagnostic.Report
import StorageFlow.Journal
import StorageFlow.Options

namespace StorageFlow

/-- How a run ends. -/
inductive Verdict where
  | ok
  | diagnostics (found : List Diagnostic) (success : Bool)
  | error (message : Text)
  | passes (names : List Text)

/-- How the operating system is told. -/
inductive ExitCode where
  | success
  | rejected
  | failure
  deriving DecidableEq, Repr

/-- The number of an exit code. -/
def ExitCode.number : ExitCode → Nat
  | success => 0
  | rejected => 1
  | failure => 2

namespace Verdict

/-- The exit code of a verdict. -/
def exitCode : Verdict → ExitCode
  | ok => .success
  | passes _ => .success
  | diagnostics _ success => if success then .success else .rejected
  | error _ => .failure

/-- Tells whether a verdict is bad news. -/
def isProblem : Verdict → Bool
  | ok => false
  | passes _ => false
  | diagnostics .. => true
  | error _ => true

/-- Diagnostics for the reader; the first that cannot be shown is a failure. -/
def formatAll (contents : Contents) (colorize : Bool) : List Diagnostic → Except Failure (List Text)
  | [] => .ok []
  | d :: ds => do
    let first ← d.format contents colorize
    let others ← formatAll contents colorize ds
    return first :: others

/-- A verdict for the reader. -/
def text (contents : Contents) (colorize : Bool) : Verdict → Except Failure Text
  | ok => .ok "No errors found"
  | error message => .ok (Release.name ++ " execution failed:\n" ++ message)
  | diagnostics found _ => (formatAll contents colorize found).map (Text.intercalate "\n\n")
  | passes names => .ok (Text.intercalate "\n" (names.map (Text.append "- ")))

/-- The fields of a verdict as a document. -/
def fields : Verdict → List (Text × Json)
  | ok => [("kind", .string "ok")]
  | error message => [("kind", .string "error"), ("error", .string message)]
  | diagnostics found success =>
    [("kind", .string "diagnostics"), ("diagnostics", .array (found.map Diagnostic.toJson)),
      ("success", .bool success)]
  | passes names => [("kind", .string "passes"), ("passes", Json.ofTexts names)]

end Verdict

/-- How a run ends, together with its saved messages. -/
structure Outcome where
  verdict : Verdict
  logs : Option Journal.Saved

/-- An outcome as a document. -/
def Outcome.toJson (o : Outcome) : Json :=
  .object <| o.verdict.fields ++ match o.logs with
    | none => []
    | some saved => [("logs", saved.toJson)]

/-- A document to be shown as the end of a run.  It need not describe an outcome. -/
structure Presentation where
  document : Json
  verdict? : Option Verdict

/-- An outcome to be shown. -/
def Outcome.present (o : Outcome) : Presentation := ⟨o.toJson, some o.verdict⟩

namespace Presentation

/-- The described verdict; a document that describes none is a defect. -/
def verdict (p : Presentation) : Except Failure Verdict :=
  match p.verdict? with
  | some verdict => .ok verdict
  | none => .error (.impossible p.document)

/-- The end of a run as a text. -/
def text (p : Presentation) (format : OutputFormat) (colorize : Bool) (contents : Contents) :
    Except Failure Text :=
  match format with
  | .json => .ok p.document.pretty
  | .plain => p.verdict.bind (Verdict.text contents colorize)

/-- The exit code for the end of a run. -/
def exitCode (p : Presentation) : Except Failure ExitCode := p.verdict.map Verdict.exitCode

end Presentation

end StorageFlow
