/-
# StorageFlow.CommandLine.Invocation — reading the arguments of the command line.

Arguments are read from left to right, and what is wrong with one ends the reading at once.  An argument that
looks like a switch but is none makes it and all later arguments that are no switches *unknown*; after two
dashes nothing is a switch any more.  When all arguments have been read, a request for help among the unknown
ones is answered, and otherwise the first unknown one is an error.
-/
import StorageFlow.CommandLine.Help
import StorageFlow.Journal
import StorageFlow.Text.Similarity

namespace StorageFlow.CommandLine

/-- What is asked for on the command line. -/
structure Invocation where
  paths : List Text
  options : Options
  deriving DecidableEq

/-- Why nothing is executed. -/
inductive Stop where
  | exit (code : Nat) (stream : Stream) (text : Text)
  | failure (failure : Failure)

/-! ## Last words -/

/-- A word about wrong usage. -/
def usageError (text : Text) : Stop := .exit 1 .err ("error: " ++ text ++ "\n")

/-- A switch lacks its value. -/
def missingValue (s : Switch) : Stop := usageError ("option '" ++ s.flags ++ "' argument missing")

/-- The value of a switch is refused. -/
def refused (s : Switch) (value : Text) : Refusal → Stop
  | .notAChoice choices =>
    usageError ("option '" ++ s.flags ++ "' argument '" ++ value ++ "' is invalid. Allowed choices are " ++
      Text.intercalate ", " choices ++ ".")
  | .noPassNames => .failure (.raised "The --passes option requires a non-empty list of pass names.")

/-- The version is asked for. -/
def versionStop : Stop := .exit 0 .out (Release.title ++ "\n")

/-- Help is asked for. -/
def helpStop : Stop := .exit 0 .out Help.text

/-- The names of switches that an unknown one may have been meant for. -/
def suggestion (argument : Text) : Text :=
  if argument.startsWith "--" then
    let names := Help.switches.map fun s => s.long.drop 2
    let similar := Text.nearest (argument.drop 2) names
    let sorted := (similar.mergeSort fun a b => (a.compare b).isLE).map (Text.append "--")
    match sorted with
    | [] => ""
    | [name] => "\n(Did you mean " ++ name ++ "?)"
    | names => "\n(Did you mean one of " ++ Text.intercalate ", " names ++ "?)"
  else ""

/-- An argument is no switch. -/
def unknownSwitch (argument : Text) : Stop :=
  usageError ("unknown option '" ++ argument ++ "'" ++ suggestion argument)

/-! ## Reading -/

/-- What has been read so far. -/
structure Scan where
  options : Options
  operands : List Text
  -- The first unknown switch and the arguments after it that are no switches.
  unknown : List Text

namespace Scan

/-- Nothing has been read. -/
def start : Scan := ⟨Options.none, [], []⟩

/-- Tells whether an argument looks like a switch. -/
def looksLikeSwitch (argument : Text) : Bool := argument.startsWith "-" && argument != "-"

/-- Keeps arguments that are no switches. -/
def keep (s : Scan) (arguments : List Text) : Scan :=
  if s.unknown.isEmpty then { s with operands := s.operands ++ arguments }
  else { s with unknown := s.unknown ++ arguments }

/-- Keeps an argument that is no known switch. -/
def keepOne (s : Scan) (argument : Text) : Scan :=
  if looksLikeSwitch argument then { s with unknown := s.unknown ++ [argument] } else s.keep [argument]

/-- Gives a switch a value. -/
def assign (s : Scan) (switch : Switch) (value : Text) : Except Stop Scan :=
  match switch.purpose.assign s.options value with
  | .ok options => .ok { s with options }
  | .error refusal => .error (refused switch value refusal)

/-- Gives a switch that has no value. -/
def set (s : Scan) (switch : Switch) : Except Stop Scan :=
  if switch.purpose = .version then .error versionStop
  else .ok { s with options := switch.purpose.set s.options }

/-- The unit between a long name and a value in one argument. -/
def equalsSign : UInt16 := Text.unit '='

/-- A long name and a value in one argument. -/
def splitValue (argument : Text) : Option (Switch × Text) :=
  let name : Text := ⟨argument.units.takeWhile fun u => u != equalsSign⟩
  match argument.units.drop name.length with
  | [] => none
  | _ :: value => do
    let switch ← Switch.find? name
    if switch.long == name && switch.value.isSome then some (switch, ⟨value⟩) else none

/-- Reads an argument that is not the name of a switch. -/
def readOther (s : Scan) (argument : Text) : Except Stop Scan :=
  -- Letters behind a short name would be further short names; the version stops before them.
  if argument.startsWith "-V" then .error versionStop
  else
    match splitValue argument with
    | some (switch, value) => s.assign switch value
    | none => .ok (s.keepOne argument)

/-- Reads arguments from left to right. -/
def readAll (s : Scan) : List Text → Except Stop Scan
  | [] => .ok s
  | argument :: rest =>
    -- Two dashes end the switches; behind an unknown one they are kept like any other argument.
    if argument = "--" then .ok (s.keep (if s.unknown.isEmpty then rest else argument :: rest))
    else
      match Switch.find? argument with
      | none => (s.readOther argument).bind fun s => readAll s rest
      | some switch =>
        if switch.value.isSome then
          -- The next argument is the value, also if it looks like a switch.
          match rest with
          | [] => .error (missingValue switch)
          | value :: rest => (s.assign switch value).bind fun s => readAll s rest
        else (s.set switch).bind fun s => readAll s rest

end Scan

/-- What is asked for by some arguments. -/
def parse (arguments : List Text) : Except Stop Invocation :=
  (Scan.start.readAll arguments).bind fun s =>
    if s.unknown.any Switch.help.isNamed then .error helpStop
    else
      match s.unknown with
      | [] => .ok ⟨s.operands, s.options⟩
      | argument :: _ => .error (unknownSwitch argument)

end StorageFlow.CommandLine
