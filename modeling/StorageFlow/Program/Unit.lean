/-
# StorageFlow.Program.Unit — the input of the analysis.

A compilation unit joins the source units of a project with the flows of its functions.  The texts of source
files are found by path; of two source units with one path the later text counts.
-/
import StorageFlow.Diagnostic.Report
import StorageFlow.Flow.Registry
import StorageFlow.Program.Syntax

namespace StorageFlow.Program

/-- Source units of a project together with the flows of their functions. -/
structure CompilationUnit where
  projectName : Text
  sources : List SourceUnit
  flows : Flow.Registry

namespace CompilationUnit

/-- A source unit's path with its text, if the text is known. -/
def textOf (s : SourceUnit) : Option (Text × Text) := s.content.map fun content => (s.path, content)

/-- The texts of the source files, by path. -/
def contents (cu : CompilationUnit) : Contents := Table.ofList (cu.sources.filterMap textOf)

/-- The functions with bodies, in the order of their declarations. -/
def functions (cu : CompilationUnit) : Except Failure (List FunctionDefinition) :=
  implementedFunctions cu.sources

/-- The flow of a function. -/
def flowOf (cu : CompilationUnit) (f : FunctionDefinition) : Except Failure Flow :=
  cu.flows.flowOf f.id f.name (some f.location)

end CompilationUnit

end StorageFlow.Program
