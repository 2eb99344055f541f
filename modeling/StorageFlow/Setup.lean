/-
# StorageFlow.Setup — the configuration and the journal of a run.

Options go before the configuration file.  Tracing goes before both; then verbosity is decided by the
options, and only if they are silent about it by the file.  Messages are saved if the output is a document.
-/
import StorageFlow.Journal
import StorageFlow.Options

namespace StorageFlow

/-- What a run finds around it. -/
structure Environment where
  files : Files
  now : TimeOfDay
  trace : Bool

/-- How much a journal tells. -/
inductive Loudness where
  | ordinary
  | silent
  | detailed
  | traced
  deriving DecidableEq, Repr, Inhabited

/-- The channels of a loudness. -/
def Loudness.channels : Loudness → Channels
  | ordinary => .ordinary
  | silent => .silent
  | detailed => .detailed
  | traced => .traced

/-- The loudness that a verbosity asks for. -/
def Verbosity.loudness : Verbosity → Loudness
  | quiet => .silent
  | debug => .detailed
  | ordinary => .ordinary

/-- The configuration and the journal of a run. -/
structure Setup where
  settings : Settings
  loudness : Loudness
  -- The journal, without messages.
  journal : Journal

namespace Setup

/-- The loudness of a run, and whether its messages are stamped with the time. -/
def chooseLoudness (trace : Bool) (options : Options) (verbosity : Verbosity) : Loudness × Bool :=
  if trace then (.traced, false)
  else if options.isVerbose then (.detailed, true)
  else if options.isQuiet then (.silent, false)
  else (verbosity.loudness, false)

/-- What stands above a list of issues with a configuration file. -/
def heading (path : Option Text) : Text :=
  let title := "Error parsing " ++ Release.name ++ " configuration"
  match path with
  | none => title
  | some path => if path.isEmpty then title else title ++ " " ++ path

/-- The configuration with the policy and the order that options ask for. -/
def override (options : Options) (s : Settings) : Settings :=
  { s with
    successPolicy := options.successPolicy.getD s.successPolicy
    worklistOrder := options.worklistOrder.getD s.worklistOrder }

/-- Sets up a run. -/
def prepare (env : Environment) (options : Options) : Except Failure Setup :=
  match Settings.load env.files options.config options.passes with
  | .error failure => .error (failure.attributeTo (heading options.config) "")
  | .ok loaded =>
    let settings := override options loaded
    -- The verbosity of the file counts only if neither tracing nor the options decide.
    let (loudness, stamped) := chooseLoudness env.trace options settings.verbosity
    .ok ⟨settings, loudness,
      .start loudness.channels (options.format == .json) (if stamped then some env.now else none)⟩

end Setup

end StorageFlow
