/-
# StorageFlow.Main — the process.

Finds out what the arguments need of the world, hands it to `Command.process`, and does what that says.
-/
import StorageFlow.Command
import Std.Time.Zoned

open StorageFlow

/-- What lies at an absolute path, as far as it can be read. -/
def entryAt (path : Text) : IO (Option Entry) := do
  let file := (← IO.currentDir) / path.asString
  if ← file.isDir then
    return some .directory
  try
    return some (.text (← IO.FS.readFile file))
  catch _ =>
    return none

/-- The paths from a directory along some components. -/
def pathsAlong : AbsolutePath → List Text → List AbsolutePath
  | p, [] => [p]
  | p, component :: components => p :: pathsAlong (p.step component) components

/-- The absolute paths that are looked at on the way along a path. -/
def pathsOn (directory : AbsolutePath) (path : Text) : List AbsolutePath :=
  pathsAlong (if path.startsWith "/" then [] else directory) (path.splitAt slash)

/-- The files that some arguments name, with the directories on the way to them. -/
def filesFor (arguments : List Text) : IO Files := do
  let directory := AbsolutePath.resolve [] (← IO.currentDir).toString
  let named := match CommandLine.parse arguments with
    | .error _ => []
    | .ok invocation => invocation.paths ++ invocation.options.config.toList
  let mut entries : Table AbsolutePath Entry := Table.empty
  for path in named.flatMap (pathsOn directory) do
    if let some entry ← entryAt path.text then
      entries := entries.set path.stored entry
  return ⟨directory, entries⟩

/-- The time of day. -/
def timeOfDay : IO TimeOfDay := do
  let t ← Std.Time.PlainTime.now
  return ⟨t.hour.val.toNat, t.minute.val.toNat, t.second.val.toNat, t.nanosecond.val.toNat / 1000000⟩

/-- The process. -/
def main (arguments : List String) : IO UInt32 := do
  let arguments := arguments.map Text.ofString
  let env : Environment :=
    ⟨← filesFor arguments, ← timeOfDay, (← IO.getEnv "PTRGUARD_TRACE") == some "1"⟩
  let ending := Command.process env arguments
  for (stream, text) in ending.output do
    match stream with
    | .err => IO.eprint text.asString
    | _ => IO.print text.asString
  return ending.code.toUInt32
