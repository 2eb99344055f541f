/-
# StorageFlow.Command — the program as a function of its arguments and its environment.

The command reads its arguments, creates and executes a session, announces the outcome, and ends with its exit
code.  Whatever goes wrong on the way is told on the error stream.
-/
import StorageFlow.CommandLine.Invocation
import StorageFlow.Session

namespace StorageFlow.Command

/-- How a process ends. -/
structure Ending where
  code : Nat
  output : List (Stream × Text)

/-- The end of a run whose outcome could be told, or the failure that it could not. -/
inductive Completion where
  | finished (session : Session) (outcome : Outcome)
  | exited (code : Nat)
  | failed (failure : Failure)

/-- Creates a session for some arguments and executes it. -/
def run (env : Environment) (arguments : List Text) : Completion × Trail :=
  match CommandLine.parse arguments with
  | .error (.exit code stream text) => (.exited code, ⟨Session.noJournal.write stream text, .empty⟩)
  | .error (.failure failure) => (.failed failure, ⟨Session.noJournal, .empty⟩)
  | .ok invocation =>
    match Session.create env invocation.paths invocation.options .empty with
    | (.error failure, trail) => (.failed failure, trail)
    | (.ok session, trail) =>
      match session.execute trail with
      | (.error failure, trail) => (.failed failure, trail)
      | (.ok outcome, trail) => (.finished session outcome, trail)

/-- Ends a process because of a failure. -/
def endWith (failure : Failure) (trail : Trail) : Ending :=
  ⟨ExitCode.failure.number, (trail.journal.write .err (failure.message ++ "\n")).output⟩

/-- The whole process. -/
def process (env : Environment) (arguments : List Text) : Ending :=
  match run env arguments with
  | (.exited code, trail) => ⟨code, trail.journal.output⟩
  | (.failed failure, trail) => endWith failure trail
  | (.finished session outcome, trail) =>
    match session.announce outcome.present trail with
    | (.error failure, trail) => endWith failure trail
    | (.ok _, trail) => ⟨outcome.verdict.exitCode.number, trail.journal.output⟩

end StorageFlow.Command
