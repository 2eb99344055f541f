/-
# StorageFlow.Location — ranges of characters in source files.

A location names a file, if it is known, and the offsets where a range starts and ends.  Locations are
ordered by file, start and end; an unknown file comes before every known one, and files are compared by
their code units.
-/
import StorageFlow.Number
import StorageFlow.Text

namespace StorageFlow

/-- A range of characters in a source file. -/
structure Location where
  file : Option Text
  start : Number
  stop : Number
  deriving DecidableEq, Repr, Inhabited

namespace Location

/-- Orders file names, an unknown one first. -/
def compareFiles : Option Text → Option Text → Ordering
  | none, none => .eq
  | none, some _ => .lt
  | some _, none => .gt
  | some a, some b => a.compare b

/-- Orders locations by file, start and end. -/
def compare (a b : Location) : Ordering :=
  (compareFiles a.file b.file).then ((Ord.compare a.start b.start).then (Ord.compare a.stop b.stop))

end Location

end StorageFlow
