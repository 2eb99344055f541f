/-
# StorageFlow.Options — the options of a run.

Every option may be left open.  An open option has a default, or leaves the decision to the configuration
file.
-/
import StorageFlow.Settings

namespace StorageFlow

/-- The form of the final output. -/
inductive OutputFormat where
  | json
  | plain
  deriving DecidableEq, Repr, Inhabited

/-- The name of an output format. -/
def OutputFormat.name : OutputFormat → Text
  | json => "json"
  | plain => "plain"

/-- Output formats by their names. -/
def OutputFormat.named : List (Text × OutputFormat) := [OutputFormat.json, .plain].map fun f => (f.name, f)

/-- The options that were given. -/
structure Options where
  config : Option Text
  passes : Option (List Text)
  listPasses : Option Bool
  successPolicy : Option Policy
  worklistOrder : Option Order
  outputFormat : Option OutputFormat
  colors : Option Bool
  verbose : Option Bool
  quiet : Option Bool
  deriving DecidableEq, Repr, Inhabited

namespace Options

open Reader

/-- No options at all. -/
def none : Options := ⟨.none, .none, .none, .none, .none, .none, .none, .none, .none⟩

/-- The schema of options. -/
def schema : Reader Options :=
  object fun j =>
    Options.mk <$> field "config" (optional text) j
      <*> field "passes" (optional (array text)) j
      <*> field "listPasses" (optional flag) j
      <*> field "successPolicy" (optional (choice Policy.named)) j
      <*> field "worklistOrder" (optional (choice Order.named)) j
      <*> field "outputFormat" (optional (choice OutputFormat.named)) j
      <*> field "colors" (optional flag) j
      <*> field "verbose" (optional flag) j
      <*> field "quiet" (optional flag) j

/-- What stands above a list of issues with options. -/
def heading : Text := "Incorrect command-line options:"

/-- The options that a document gives. -/
def read (document : Option Json) : Except Failure Options :=
  (schema document).toExcept.mapError fun issues => .mistake (.mismatch heading issues "")

/-- A field for an option, if it was given. -/
def given {α : Type} (key : Text) (encode : α → Json) (option : Option α) : List (Text × Json) :=
  (option.map fun a => (key, encode a)).toList

/-- The given options as a document. -/
def toJson (o : Options) : Json :=
  .object <|
    given "config" .string o.config ++
    given "passes" Json.ofTexts o.passes ++
    given "listPasses" .bool o.listPasses ++
    given "successPolicy" (fun p => .string p.name) o.successPolicy ++
    given "worklistOrder" (fun x => .string x.name) o.worklistOrder ++
    given "outputFormat" (fun f => .string f.name) o.outputFormat ++
    given "colors" .bool o.colors ++
    given "verbose" .bool o.verbose ++
    given "quiet" .bool o.quiet

variable (o : Options)

/-- Whether the built-in passes are listed. -/
def listsPasses : Bool := o.listPasses.getD false

/-- The form of the output. -/
def format : OutputFormat := o.outputFormat.getD .plain

/-- Whether colours are used. -/
def colorizes : Bool := o.colors.getD true

/-- Whether details are wanted. -/
def isVerbose : Bool := o.verbose.getD false

/-- Whether silence is wanted. -/
def isQuiet : Bool := o.quiet.getD false

end Options

end StorageFlow
