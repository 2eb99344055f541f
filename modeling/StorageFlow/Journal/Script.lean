/-
# StorageFlow.Journal.Script — nested sequences of logging steps.

A script logs messages, asks for the saved ones, raises errors, and does all this inside contexts that may
be nested to any depth.  An error ends the steps of its context; the context passes it to its own answer,
and the steps after the context go on.
-/
import StorageFlow.Journal

namespace StorageFlow.Journal

/-- A logging step. -/
inductive Step where
  | log (level : Level) (message : Text)
  | saved
  | raise (message : Text)
  | within (context : Text) (steps : List Step)

/-- What a step answers. -/
inductive Answer where
  | written (output : List (Stream × Text))
  | saved (messages : Except Failure Saved)
  -- The answers of the steps inside a context, and the error that ended them, if one did.
  | within (answers : List Answer) (error : Option Failure)

mutual

/-- Takes a step.  A step that raises an error has no answer. -/
def Step.run (j : Journal) : Step → Except Failure Answer × Journal
  | .log level message =>
    let after := j.log level message
    (.ok (.written (after.output.drop j.output.length)), after)
  | .saved => (.ok (.saved j.savedMessages), j)
  | .raise message => (.error (.raised message), j)
  | .within context steps =>
    let ((answers, error), after) := runAll (j.enter context) steps
    (.ok (.within answers error), after.leave)

/-- Takes steps one after the other until one raises an error. -/
def runAll (j : Journal) : List Step → (List Answer × Option Failure) × Journal
  | [] => (([], none), j)
  | step :: steps =>
    match step.run j with
    | (.error failure, after) => (([], some failure), after)
    | (.ok answer, after) =>
      let ((answers, error), last) := runAll after steps
      ((answer :: answers, error), last)

end

end StorageFlow.Journal
