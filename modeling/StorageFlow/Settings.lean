/-
# StorageFlow.Settings — the configuration of a run.

A configuration file may name the passes to execute, the policy that decides on success, the order in which
nodes are processed, and how much is told.  Pass names from the command line replace those of the file and
are checked at once; those of the file are checked when the passes are set up.
-/
import StorageFlow.Files
import StorageFlow.Json.Strict
import StorageFlow.Validation
import StorageFlow.Worklist

namespace StorageFlow

/-- Which diagnostics decide on the success of a pass. -/
inductive Policy where
  -- All recorded diagnostics, also those from before.
  | sink
  -- The diagnostics of the pass alone.
  | pass
  deriving DecidableEq, Repr, Inhabited

/-- How much a run tells. -/
inductive Verbosity where
  | quiet
  | debug
  | ordinary
  deriving DecidableEq, Repr, Inhabited

/-- The name of a policy. -/
def Policy.name : Policy → Text
  | sink => "sink"
  | pass => "pass"

/-- The name of an order. -/
def Order.name : Order → Text
  | lifo => "lifo"
  | fifo => "fifo"

/-- The name of a verbosity. -/
def Verbosity.name : Verbosity → Text
  | quiet => "quiet"
  | debug => "debug"
  | ordinary => "default"

/-- Policies by their names. -/
def Policy.named : List (Text × Policy) := [Policy.sink, .pass].map fun p => (p.name, p)

/-- Orders by their names. -/
def Order.named : List (Text × Order) := [Order.lifo, .fifo].map fun o => (o.name, o)

/-- Verbosities by their names. -/
def Verbosity.named : List (Text × Verbosity) :=
  [Verbosity.quiet, .debug, .ordinary].map fun v => (v.name, v)

/-- The names of the built-in passes. -/
def builtInPassNames : List Text := ["UninitializedStorageAccess"]

/-- The configuration of a run. -/
structure Settings where
  passes : List Text
  successPolicy : Policy
  worklistOrder : Order
  verbosity : Verbosity
  deriving DecidableEq, Repr

namespace Settings

open Reader

/-- What a configuration file says. -/
structure Document where
  passes : Option (List Text)
  successPolicy : Policy
  worklistOrder : Order
  verbosity : Verbosity
  deriving DecidableEq, Repr

/-- The fields of a configuration file. -/
def knownKeys : List Text := ["passes", "successPolicy", "worklistOrder", "verbosity"]

/-- A configuration file, which has no other fields than the known ones. -/
def document : Reader Document :=
  object fun j =>
    (Document.mk <$> field "passes" (optional (array (object (field "className" text)))) j
      <*> field "successPolicy" (withDefault .sink (choice Policy.named)) j
      <*> field "worklistOrder" (withDefault .lifo (choice Order.named)) j
      <*> field "verbosity" (withDefault .ordinary (choice Verbosity.named)) j).also (unknownKeys knownKeys j)

/-- Reads the configuration file at a path. -/
def readFile (fs : Files) (path : Text) : Except Failure Json :=
  match fs.open? path with
  | .error fault => .error (.mistake (.configurationUnreadable path fault))
  | .ok content =>
    match Json.Strict.read content with
    | some j => .ok j
    | none => .error (.mistake (.configurationMalformed path))

/-- The configuration file, an empty one if no path is given. -/
def source (fs : Files) : Option Text → Except Failure Json
  | none => .ok (.object [])
  | some path => if path.isEmpty then .ok (.object []) else readFile fs path

/-- The names from the command line without blanks, if all of them name built-in passes. -/
def checkNames (names : List Text) : Except Failure (List Text) :=
  -- A list that names nothing enables nothing.
  let enabled := names.filter fun name => !name.isEmpty
  match enabled.find? fun name => !builtInPassNames.contains name with
  | some name => .error (.mistake (.unknownPass name))
  | none => .ok enabled

/-- The passes to execute: those named on the command line, else those of the file, else all. -/
def enabledPasses (named : Option (List Text)) (d : Document) : Except Failure (List Text) :=
  match named with
  | some names => checkNames names
  | none => .ok (d.passes.getD builtInPassNames)

/-- The configuration from a file and from the pass names of the command line. -/
def load (fs : Files) (path : Option Text) (named : Option (List Text)) : Except Failure Settings := do
  let j ← source fs path
  let d ← (document (some j)).toExcept.mapError Failure.invalid
  let passes ← enabledPasses named d
  return ⟨passes, d.successPolicy, d.worklistOrder, d.verbosity⟩

end Settings

end StorageFlow
