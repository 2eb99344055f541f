/-
# StorageFlow.CommandLine.Switch — the switches of the command line.

A switch has a long name, and may have a short one and a value.  The table lists all switches in the order in
which they are explained to the user.
-/
import StorageFlow.Options
import StorageFlow.Text.Blank
import StorageFlow.Text.Split

namespace StorageFlow.CommandLine

/-- What a switch is for. -/
inductive Purpose where
  | version
  | config
  | passes
  | listPasses
  | successPolicy
  | worklistOrder
  | outputFormat
  | noColors
  | verbose
  | quiet
  | help
  deriving DecidableEq, Repr

/-- A switch of the command line. -/
structure Switch where
  purpose : Purpose
  short : Option Text
  long : Text
  value : Option Text
  description : Text
  deriving DecidableEq, Repr

namespace Switch

/-- A switch without a short name. -/
def ofLong (purpose : Purpose) (long : Text) (value : Option Text) (description : Text) : Switch :=
  ⟨purpose, none, long, value, description⟩

/-- The names of a switch and its value, as they are shown to the user. -/
def flags (s : Switch) : Text :=
  (match s.short with | some short => short ++ ", " | none => "") ++ s.long ++
    (match s.value with | some value => " " ++ value | none => "")

/-- Tells whether an argument is a name of a switch. -/
def isNamed (s : Switch) (argument : Text) : Bool := s.short == some argument || s.long == argument

/-- The switches that are recognized while arguments are read. -/
def table : List Switch := [
  ⟨.version, some "-V", "--version", none, "output the version number"⟩,
  ofLong .config "--config" (some "<PATH>") ("Path to the " ++ Release.name ++ " configuration file."),
  ofLong .passes "--passes" (some "<names>") "A comma-separated list of passes to execute.",
  ofLong .listPasses "--list-passes" none "List available built-in passes. (default: false)",
  ofLong .successPolicy "--success-policy" (some "<policy>")
    ("Diagnostics deciding on success: all the recorded ones or only those of the executed passes. " ++
      "(choices: \"sink\", \"pass\")"),
  ofLong .worklistOrder "--worklist-order" (some "<order>")
    "Order of processing CFG nodes in the dataflow solver. (choices: \"lifo\", \"fifo\")",
  ofLong .outputFormat "--output-format" (some "<format>")
    "Set the output format. (choices: \"json\", \"plain\", default: \"plain\")",
  ofLong .noColors "--no-colors" none "Disable colorized output.",
  ofLong .verbose "--verbose" none "Enable verbose output. (default: false)",
  ofLong .quiet "--quiet" none "Suppress output. (default: false)"]

/-- The switch that asks for help.  It is looked for after all arguments have been read. -/
def help : Switch := ⟨.help, some "-h", "--help", none, "display help for command"⟩

/-- The switch with a name. -/
def find? (argument : Text) : Option Switch := table.find? fun s => s.isNamed argument

end Switch

/-! ## Values -/

/-- Why a value is refused. -/
inductive Refusal where
  | notAChoice (choices : List Text)
  | noPassNames
  deriving DecidableEq, Repr

/-- The named value, if the name is one of the choices. -/
def chooseNamed {α : Type} (named : List (Text × α)) (value : Text) : Except Refusal α :=
  match Table.find? value named with
  | some a => .ok a
  | none => .error (.notAChoice (named.map Prod.fst))

/-- The unit between the names in a list. -/
def comma : UInt16 := Text.unit ','

/-- The names in a comma-separated list, without surrounding blanks. -/
def passNames (value : Text) : Except Refusal (List Text) :=
  match ((value.splitAt comma).map Text.trim).filter fun name => !name.isEmpty with
  | [] => .error .noPassNames
  | names => .ok names

/-- The options after a switch was given with a value.  A later value replaces an earlier one. -/
def Purpose.assign (o : Options) (value : Text) : Purpose → Except Refusal Options
  | .config => .ok { o with config := some value }
  | .passes => (passNames value).map fun names => { o with passes := some names }
  | .successPolicy => (chooseNamed Policy.named value).map fun p => { o with successPolicy := some p }
  | .worklistOrder => (chooseNamed Order.named value).map fun p => { o with worklistOrder := some p }
  | .outputFormat => (chooseNamed OutputFormat.named value).map fun p => { o with outputFormat := some p }
  | .version | .listPasses | .noColors | .verbose | .quiet | .help => .ok o

/-- The options after a switch was given that has no value. -/
def Purpose.set (o : Options) : Purpose → Options
  | .listPasses => { o with listPasses := some true }
  | .noColors => { o with colors := some false }
  | .verbose => { o with verbose := some true }
  | .quiet => { o with quiet := some true }
  | .version | .config | .passes | .successPolicy | .worklistOrder | .outputFormat | .help => o

end StorageFlow.CommandLine
