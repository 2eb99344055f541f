/-
# StorageFlow.Diagnostic.Sink — the diagnostics of a run, in the order in which they were recorded.

A sink only ever grows at its end.  It is shared by all passes of a run and may hold diagnostics from before
the run.
-/
import StorageFlow.Diagnostic

namespace StorageFlow.Diagnostic

/-- The recorded diagnostics. -/
structure Sink where
  diagnostics : List Diagnostic
  deriving DecidableEq, Inhabited

namespace Sink

/-- The sink without diagnostics. -/
def empty : Sink := ⟨[]⟩

/-- The number of recorded diagnostics. -/
def size (s : Sink) : Nat := s.diagnostics.length

/-- Records a diagnostic. -/
def record (s : Sink) (d : Diagnostic) : Sink := ⟨s.diagnostics ++ [d]⟩

/-- Records diagnostics one after the other. -/
def recordAll (s : Sink) (ds : List Diagnostic) : Sink := ⟨s.diagnostics ++ ds⟩

/-- The diagnostics recorded after the first `count`. -/
def since (s : Sink) (count : Nat) : List Diagnostic := s.diagnostics.drop count

/-- Tells whether no hard error was recorded. -/
def containsOnlyWarnings (s : Sink) : Bool := s.diagnostics.all fun d => !d.isError

@[simp] theorem since_recordAll (s : Sink) (ds : List Diagnostic) : (s.recordAll ds).since s.size = ds := by
  simp [recordAll, since, size]

theorem recordAll_append (s : Sink) (ds es : List Diagnostic) :
    s.recordAll (ds ++ es) = (s.recordAll ds).recordAll es := by
  simp [recordAll]

end Sink

end StorageFlow.Diagnostic
