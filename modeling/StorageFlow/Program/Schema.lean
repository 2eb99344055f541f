/-
# StorageFlow.Program.Schema — the schema of program documents.

The readers follow the structure of the document types.  The order in which fields are read is the order in
which their issues are reported.
-/
import StorageFlow.Program.Document
import StorageFlow.Validation

namespace StorageFlow.Program

open Reader

/-- The rule that a range does not end before it starts. -/
def spanRule : Text := "Location must not end before it starts"

/-- The range between two offsets, if they are in order. -/
def spanBetween (start stop : Number) : Checked Span :=
  if h : start ≤ stop then .valid ⟨start.toNat, stop.toNat, Number.toNat_le_toNat h⟩
  else .invalid (.rule spanRule)

/-- A range of characters. -/
def span : Reader Span :=
  object fun j =>
    -- The offsets are compared even if one of them is not a natural number.
    (Prod.mk <$> field "start" natural j <*> field "end" natural j).andThen fun (start, stop) =>
      spanBetween start stop

/-- An expression. -/
def site : Reader SiteDocument :=
  object fun j => SiteDocument.mk <$> field "id" nat j <*> field "loc" span j

/-- A touch that has no site. -/
def bareTouch (touch : Touch) (j : Json) : Checked OccurrenceDocument :=
  (fun target => ⟨touch, target, none⟩) <$> field "variable" nat j

/-- A touch that may have a site. -/
def sitedTouch (touch : Touch) (j : Json) : Checked OccurrenceDocument :=
  OccurrenceDocument.mk touch <$> field "variable" nat j <*> field "site" (optional site) j

/-- An occurrence of a variable. -/
def occurrence : Reader OccurrenceDocument :=
  variant "kind" [
    ("declaration", bareTouch .declaration),
    ("assignment", sitedTouch .assignment),
    ("inline_reference", sitedTouch .inlineReference),
    ("access", sitedTouch .access)]

/-- A node of a control flow. -/
def node : Reader NodeDocument :=
  object fun j =>
    NodeDocument.mk <$> field "occurrences" (withDefault [] (array occurrence)) j
      <*> field "exits" (withDefault [] (array nat)) j

/-- A control flow, which has at least one node. -/
def flow : Reader FlowDocument :=
  object fun j =>
    FlowDocument.mk <$> field "entry" nat j <*> field "exit" nat j <*> field "nodes" (arrayWith 1 node) j

/-- The data locations by their names. -/
def dataLocations : List (Text × DataLocation) := DataLocation.all.map fun d => (d.name, d)

/-- A variable. -/
def variableSchema : Reader VariableDocument :=
  object fun j =>
    VariableDocument.mk <$> field "id" nat j <*> field "name" text j
      <*> field "storage" (withDefault .unspecified (choice dataLocations)) j <*> field "loc" span j

/-- A function. -/
def function (j : Json) : Checked FunctionDocument :=
  FunctionDocument.mk <$> field "id" nat j <*> field "name" text j
    <*> field "implemented" (withDefault true flag) j <*> field "loc" span j
    <*> field "variables" (withDefault [] (array variableSchema)) j <*> field "cfg" (optional flow) j

/-- Something with a name. -/
def entity (j : Json) : Checked EntityDocument :=
  EntityDocument.mk <$> field "id" nat j <*> field "name" text j <*> field "loc" span j

/-- A member of a contract. -/
def member : Reader MemberDocument :=
  variant "kind" [
    ("function", fun j => .function <$> function j),
    ("variable", fun j => .stateVariable <$> entity j),
    ("struct", fun j => .struct <$> entity j),
    ("event", fun j => .event <$> entity j)]

/-- A declaration at the top level. -/
def declaration : Reader DeclarationDocument :=
  variant "kind" [
    ("contract", fun j =>
      .contract <$> entity j <*> field "members" (withDefault [] (array member)) j),
    ("function", fun j => .function <$> function j),
    ("struct", fun j => .struct <$> entity j),
    ("import", fun j =>
      .importDirective <$> field "id" nat j <*> field "path" text j <*> field "loc" span j),
    ("pragma", fun j =>
      .pragma <$> field "id" nat j <*> field "literals" (array text) j <*> field "loc" span j)]

/-- A source unit. -/
def source : Reader SourceDocument :=
  object fun j =>
    SourceDocument.mk <$> field "path" text j <*> field "content" (optional text) j
      <*> field "nodes" (withDefault [] (array declaration)) j

/-- A program. -/
def program : Reader ProgramDocument :=
  object fun j => ProgramDocument.mk <$> field "name" (optional text) j <*> field "sources" (array source) j

end StorageFlow.Program
