/-
# StorageFlow.Action — what a run does.

An action works on the `Trail` of a run, which holds its journal and the sink of its diagnostics, and ends
with a result or a failure.  What an action did before it failed stays on the trail.
-/
import StorageFlow.Diagnostic.Sink
import StorageFlow.Journal

namespace StorageFlow

universe u v

/-- What a run leaves behind. -/
structure Trail where
  journal : Journal
  sink : Diagnostic.Sink

/-- A step of a run, which may fail. -/
def Action (α : Type u) : Type u := Trail → Except Failure α × Trail

namespace Action

variable {α : Type u} {β : Type v}

/-- Ends with a result and leaves the trail as it is. -/
def pure (a : α) : Action α := fun trail => (.ok a, trail)

/-- Fails and leaves the trail as it is. -/
def fail (failure : Failure) : Action α := fun trail => (.error failure, trail)

/-- One action after another; if the first fails, the second does not happen. -/
def bind (x : Action α) (f : α → Action β) : Action β := fun trail =>
  match x trail with
  | (.ok a, trail) => f a trail
  | (.error failure, trail) => (.error failure, trail)

instance : Monad Action where
  pure := pure
  bind := bind

instance : LawfulMonad Action := LawfulMonad.mk' Action
  (by
    intro α x
    funext trail
    show bind x _ trail = x trail
    unfold bind
    split <;> simp_all [pure])
  (by intro α β a f; rfl)
  (by
    intro α β γ x f g
    funext trail
    show bind (bind x f) g trail = bind x (fun a => bind (f a) g) trail
    unfold bind
    split <;> split <;> simp_all)

/-- Ends with a result that was found already, or fails. -/
def ofExcept : Except Failure α → Action α
  | .ok a => pure a
  | .error failure => fail failure

/-- The journal as it is now. -/
def getJournal : Action Journal := fun trail => (.ok trail.journal, trail)

/-- The sink as it is now. -/
def getSink : Action Diagnostic.Sink := fun trail => (.ok trail.sink, trail)

/-- Changes the journal. -/
def modifyJournal (change : Journal → Journal) : Action Unit := fun trail =>
  (.ok (), { trail with journal := change trail.journal })

/-- Logs a message. -/
def log (level : Level) (message : Text) : Action Unit := modifyJournal fun j => j.log level message

/-- Records diagnostics. -/
def record (ds : List Diagnostic) : Action Unit := fun trail =>
  (.ok (), { trail with sink := trail.sink.recordAll ds })

/-- Does something inside a context, which is left however it ends. -/
def withContext (context : Text) (x : Action α) : Action α := fun trail =>
  let (result, after) := x { trail with journal := trail.journal.enter context }
  (result, { after with journal := after.journal.leave })

/-- Does something and answers how it ended instead of failing. -/
def attempt (x : Action α) : Action (Except Failure α) := fun trail =>
  let (result, after) := x trail
  (.ok result, after)

end Action

end StorageFlow
