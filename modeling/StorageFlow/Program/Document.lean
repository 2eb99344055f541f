/-
# StorageFlow.Program.Document — program documents.

A program document lists source units with their declarations.  A function comes with its variables and,
if it has a body, with its control flow.  The types hold what a document says once it has been checked
against its schema; in particular no range of characters ends before it starts.
-/
import StorageFlow.Occurrence

namespace StorageFlow.Program

/-- A range of characters in the enclosing source unit. -/
structure Span where
  start : Nat
  stop : Nat
  start_le_stop : start ≤ stop
  deriving DecidableEq

/-- The location of a range in a file. -/
def Span.inFile (s : Span) (file : Text) : Location := ⟨some file, .ofNat s.start, .ofNat s.stop⟩

/-- An expression in a document. -/
structure SiteDocument where
  id : Nat
  span : Span
  deriving DecidableEq

/-- The site of an expression in a file. -/
def SiteDocument.inFile (s : SiteDocument) (file : Text) : Site := ⟨.ofNat s.id, s.span.inFile file⟩

/-- A touch of a variable, named by its identifier. -/
structure OccurrenceDocument where
  touch : Touch
  target : Nat
  -- The expression; a declaration has none.
  site : Option SiteDocument
  deriving DecidableEq

/-- A node of a control flow. -/
structure NodeDocument where
  occurrences : List OccurrenceDocument
  exits : List Nat
  deriving DecidableEq

/-- A control flow. -/
structure FlowDocument where
  entry : Nat
  exit : Nat
  nodes : List NodeDocument
  deriving DecidableEq

/-- A variable of a function. -/
structure VariableDocument where
  id : Nat
  name : Text
  storage : DataLocation
  span : Span
  deriving DecidableEq

/-- A function. -/
structure FunctionDocument where
  id : Nat
  name : Text
  implemented : Bool
  span : Span
  locals : List VariableDocument
  flow : Option FlowDocument
  deriving DecidableEq

/-- Something with a name. -/
structure EntityDocument where
  id : Nat
  name : Text
  span : Span
  deriving DecidableEq

/-- A member of a contract. -/
inductive MemberDocument where
  | function (f : FunctionDocument)
  | stateVariable (e : EntityDocument)
  | struct (e : EntityDocument)
  | event (e : EntityDocument)
  deriving DecidableEq

/-- A declaration at the top level of a source unit. -/
inductive DeclarationDocument where
  | contract (e : EntityDocument) (members : List MemberDocument)
  | function (f : FunctionDocument)
  | struct (e : EntityDocument)
  | importDirective (id : Nat) (path : Text) (span : Span)
  | pragma (id : Nat) (literals : List Text) (span : Span)
  deriving DecidableEq

/-- A source unit. -/
structure SourceDocument where
  path : Text
  content : Option Text
  nodes : List DeclarationDocument
  deriving DecidableEq

/-- A program. -/
structure ProgramDocument where
  name : Option Text
  sources : List SourceDocument
  deriving DecidableEq

/-- A function together with the file that it stands in. -/
structure PlacedFunction where
  file : Text
  function : FunctionDocument
  deriving DecidableEq

namespace PlacedFunction

/-- Where the function stands. -/
def location (f : PlacedFunction) : Location := f.function.span.inFile f.file

end PlacedFunction

/-- The function that a member is, if it is one. -/
def MemberDocument.function? : MemberDocument → Option FunctionDocument
  | .function f => some f
  | _ => none

/-- The functions of a declaration: itself, or the methods of a contract. -/
def DeclarationDocument.functions : DeclarationDocument → List FunctionDocument
  | .contract _ members => members.filterMap MemberDocument.function?
  | .function f => [f]
  | _ => []

/-- The functions of a source unit, in the order of their declarations. -/
def SourceDocument.functions (s : SourceDocument) : List PlacedFunction :=
  (s.nodes.flatMap DeclarationDocument.functions).map fun f => ⟨s.path, f⟩

/-- The functions of a program, in the order of their declarations. -/
def ProgramDocument.functions (p : ProgramDocument) : List PlacedFunction :=
  p.sources.flatMap SourceDocument.functions

end StorageFlow.Program
