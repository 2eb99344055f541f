/-
# StorageFlow.Diagnostic — findings of the analysis passes.

A diagnostic names the pass that made it, says how severe it is, and points to a place and to further
places that explain it.  The severity is kept as a number, since diagnostics also come from outside; what a
number means is decided where it is shown.
-/
import StorageFlow.Failure

namespace StorageFlow

/-- How severe a diagnostic is. -/
inductive Severity where
  | info
  | warning
  | error
  deriving DecidableEq, Repr, Inhabited

namespace Severity

/-- The code of a severity. -/
def code : Severity → Int
  | info => 1
  | warning => 2
  | error => 3

/-- The severity with a code; other codes have no meaning. -/
def ofCode? (code : Int) : Option Severity :=
  if code = 1 then some info else if code = 2 then some warning else if code = 3 then some error else none

theorem ofCode?_code (s : Severity) : ofCode? s.code = some s := by cases s <;> rfl

/-- The number that stands for a severity. -/
def number (s : Severity) : Number := Number.ofInt s.code

/-- The severity that a number stands for. -/
def ofNumber? (x : Number) : Option Severity := x.toInt?.bind ofCode?

theorem ofNumber?_number (s : Severity) : ofNumber? s.number = some s := by
  rw [ofNumber?, number, Number.toInt?_ofInt]
  exact ofCode?_code s

/-- The name of a severity. -/
def name : Severity → Text
  | info => "Info"
  | warning => "Warning"
  | error => "Error"

end Severity

/-- A place that explains a diagnostic, such as the declaration of the variable it is about. -/
structure SecondaryLocation where
  message : Text
  location : Location
  deriving DecidableEq, Repr, Inhabited

/-- A finding of a pass. -/
structure Diagnostic where
  passId : Text
  severity : Number
  message : Text
  location : Location
  secondaryLocations : List SecondaryLocation
  deriving DecidableEq, Repr, Inhabited

namespace Diagnostic

/-- A hard error found by a pass. -/
def hardError (passId : Text) (location : Location) (secondaryLocations : List SecondaryLocation)
    (message : Text) : Diagnostic :=
  ⟨passId, Severity.error.number, message, location, secondaryLocations⟩

/-- A warning given by a pass. -/
def warning (passId : Text) (location : Location) (secondaryLocations : List SecondaryLocation)
    (message : Text) : Diagnostic :=
  ⟨passId, Severity.warning.number, message, location, secondaryLocations⟩

/-- Tells whether a diagnostic is a hard error. -/
def isError (d : Diagnostic) : Bool := d.severity == Severity.error.number

end Diagnostic

/-! ## Diagnostics as documents -/

/-- A location as a document; an unknown file is left out. -/
def Location.toJson (l : Location) : Json :=
  let range : List (Text × Json) := [("start", .number l.start), ("end", .number l.stop)]
  match l.file with
  | some file => .object (("file", .string file) :: range)
  | none => .object range

/-- An explaining place as a document. -/
def SecondaryLocation.toJson (s : SecondaryLocation) : Json :=
  .object [("message", .string s.message), ("location", s.location.toJson)]

/-- A diagnostic as a document. -/
def Diagnostic.toJson (d : Diagnostic) : Json :=
  .object [
    ("passId", .string d.passId),
    ("severity", .number d.severity),
    ("message", .string d.message),
    ("location", d.location.toJson),
    ("secondaryLocations", .array (d.secondaryLocations.map SecondaryLocation.toJson))]

end StorageFlow
