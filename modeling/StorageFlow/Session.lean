/-
# StorageFlow.Session — a run over some program files.

A session is created from paths and options: the options are checked, the run is set up, each distinct path
is loaded, and the enabled passes are looked up.  Executing a session executes every pass on every
compilation unit, whatever the earlier ones answered, and collects the diagnostics recorded meanwhile.
-/
import StorageFlow.Outcome
import StorageFlow.Pass.Catalogue
import StorageFlow.Program.Loader
import StorageFlow.Setup

namespace StorageFlow

open Program

/-- A run over some program files. -/
structure Session where
  settings : Settings
  passes : List Pass
  units : List CompilationUnit
  format : OutputFormat
  colorizes : Bool
  listsPasses : Bool
  trace : Bool

namespace Session

/-! ## Creation -/

/-- Options that contradict each other are a mistake. -/
def checkOptions (o : Options) : Except Failure Unit :=
  if o.isVerbose && o.isQuiet then .error (.mistake .verboseAndQuiet) else .ok ()

/-- Loads program files one after the other. -/
def loadFiles (fs : Files) : List Text → Action (List CompilationUnit)
  | [] => return []
  | path :: paths => do
    let first ← loadFile fs path
    let others ← loadFiles fs paths
    return first :: others

/-- Looks up passes by their names. -/
def lookUpPasses (order : Order) (names : List Text) : Action (List Pass) := do
  let found ← Pass.findAll order names
  let passes ← Action.ofExcept (Pass.requireAll found)
  Action.log .debug ("Enabled passes (" ++ Text.ofNat passes.length ++ "): " ++
    Text.intercalate ", " (passes.map Pass.idText))
  return passes

/-- Replaces the names of the enabled passes and looks them up. -/
def enable (s : Session) (names : List Text) : Action Session := do
  let passes ← lookUpPasses s.settings.worklistOrder names
  return { s with settings := { s.settings with passes := names }, passes }

/-- Starts a session whose run has been set up.  A path that is repeated counts once. -/
def start (env : Environment) (paths : List Text) (options : Options) (setup : Setup) : Action Session := do
  let units ← loadFiles env.files paths.eraseDups
  let passes ← lookUpPasses setup.settings.worklistOrder setup.settings.passes
  return ⟨setup.settings, passes, units, options.format, options.colorizes, options.listsPasses, env.trace⟩

/-- The journal of a run that could not be set up. -/
def noJournal : Journal := .start .silent false none

/-- Creates a session.  The sink may hold diagnostics from before. -/
def create (env : Environment) (paths : List Text) (options : Options) (sink : Diagnostic.Sink) :
    Except Failure Session × Trail :=
  match (checkOptions options).bind fun _ => Setup.prepare env options with
  | .error failure => (.error failure, ⟨noJournal, sink⟩)
  | .ok setup => start env paths options setup ⟨setup.journal, sink⟩

/-! ## Execution -/

/-- Executes every pass on every compilation unit, in this order: unit by unit, pass by pass. -/
def schedule (s : Session) : List (CompilationUnit × Pass) :=
  s.units.flatMap fun cu => s.passes.map fun pass => (cu, pass)

/-- Executes passes one after the other, and answers whether all were successful. -/
def runAll (policy : Policy) : List (CompilationUnit × Pass) → Action Bool
  | [] => return true
  | (cu, pass) :: rest => do
    -- The rest is executed whatever this pass answers.
    let first ← pass.analyze policy cu
    let others ← runAll policy rest
    return first && others

/-- Executes all passes and tells what was recorded meanwhile. -/
def analyze (s : Session) : Action Verdict := do
  let before ← Action.getSink
  let success ← runAll s.settings.successPolicy s.schedule
  let recorded := (← Action.getSink).since before.size
  return if recorded.isEmpty && success then .ok else .diagnostics recorded success

/-- What is told about a failure that ended a run. -/
def failureText (trace : Bool) (failure : Failure) : Text :=
  if failure.isError then
    if trace then failure.message ++ "\n" ++ failure.stackText else failure.message
  else "An error occurred:\n" ++ failure.message

/-- What is told if no pass is enabled. -/
def nothingToExecute : Text := "Nothing to execute. Please specify at least one pass."

/-- The verdict of a run.  A failure becomes a verdict too. -/
def verdict (s : Session) : Action Verdict :=
  if s.listsPasses then return .passes builtInPassNames
  else if s.passes.isEmpty then do
    Action.log .warn nothingToExecute
    return .ok
  else do
    match ← s.analyze.attempt with
    | .ok verdict => return verdict
    | .error failure =>
      -- Diagnostics recorded before the failure stay in the sink.
      let message := failureText s.trace failure
      Action.log .error message
      return .error message

/-- Executes a session. -/
def execute (s : Session) : Action Outcome := do
  let verdict ← s.verdict
  match s.format with
  | .plain => return ⟨verdict, none⟩
  | .json =>
    let saved ← Action.ofExcept (← Action.getJournal).savedMessages
    return ⟨verdict, some saved⟩

/-! ## The end of a run -/

/-- The texts of all source files; of several with one path the last counts. -/
def contents (s : Session) : Contents := s.units.foldl (fun c cu => c.merge cu.contents) Table.empty

/-- The end of a run as a text. -/
def text (s : Session) (p : Presentation) : Except Failure Text := p.text s.format s.colorizes s.contents

/-- Tells the user how a run ended: a document goes to the output as it is, a text is a message. -/
def announce (s : Session) (p : Presentation) : Action Unit := do
  let text ← Action.ofExcept (s.text p)
  match s.format with
  | .json => Action.modifyJournal fun j => j.write .out (text ++ "\n")
  | .plain =>
    let verdict ← Action.ofExcept p.verdict
    Action.log (if verdict.isProblem then .error else .info) text

end Session

end StorageFlow
