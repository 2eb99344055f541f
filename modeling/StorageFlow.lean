import StorageFlow.Action
import StorageFlow.Analysis
import StorageFlow.Command
import StorageFlow.CommandLine.Help
import StorageFlow.CommandLine.Invocation
import StorageFlow.CommandLine.Switch
import StorageFlow.Diagnostic
import StorageFlow.Diagnostic.Report
import StorageFlow.Diagnostic.Sink
import StorageFlow.Facts
import StorageFlow.Failure
import StorageFlow.Files
import StorageFlow.FiniteSet
import StorageFlow.Flow
import StorageFlow.Flow.Builder
import StorageFlow.Flow.Registry
import StorageFlow.GenKill
import StorageFlow.Issue
import StorageFlow.Journal
import StorageFlow.Journal.Script
import StorageFlow.Json
import StorageFlow.Json.Lenient
import StorageFlow.Json.Printer
import StorageFlow.Json.Reader
import StorageFlow.Json.Strict
import StorageFlow.Lattice
import StorageFlow.Lattice.Registers
import StorageFlow.Location
import StorageFlow.Main
import StorageFlow.Number
import StorageFlow.Number.Decimal
import StorageFlow.Occurrence
import StorageFlow.Options
import StorageFlow.Outcome
import StorageFlow.Pass
import StorageFlow.Pass.Catalogue
import StorageFlow.Pass.UninitializedAccess
import StorageFlow.Program.Document
import StorageFlow.Program.Loader
import StorageFlow.Program.Schema
import StorageFlow.Program.Syntax
import StorageFlow.Program.Unit
import StorageFlow.Proofs.Analysis.Distributivity
import StorageFlow.Proofs.Analysis.Effort
import StorageFlow.Proofs.Analysis.Failing
import StorageFlow.Proofs.Analysis.FixedEffects
import StorageFlow.Proofs.Analysis.Invariance
import StorageFlow.Proofs.Analysis.Monotonicity
import StorageFlow.Proofs.Analysis.Separation
import StorageFlow.Proofs.Command.Status
import StorageFlow.Proofs.Flow.Assembly
import StorageFlow.Proofs.Flow.Building
import StorageFlow.Proofs.Flow.Calls
import StorageFlow.Proofs.Flow.Lookup
import StorageFlow.Proofs.Flow.Path
import StorageFlow.Proofs.Flow.Recording
import StorageFlow.Proofs.Flow.Simplification
import StorageFlow.Proofs.Journal.Nesting
import StorageFlow.Proofs.Lattice.Laws
import StorageFlow.Proofs.Lattice.Refinement
import StorageFlow.Proofs.List.Distinct
import StorageFlow.Proofs.Occurrence.Lexicographic
import StorageFlow.Proofs.Occurrence.Order
import StorageFlow.Proofs.Pass.Coverage
import StorageFlow.Proofs.Program.Acceptance
import StorageFlow.Proofs.Program.Conversion
import StorageFlow.Proofs.Program.Fidelity
import StorageFlow.Proofs.Program.Reading
import StorageFlow.Proofs.Session.Agreement
import StorageFlow.Proofs.Session.Creation
import StorageFlow.Proofs.Session.Execution
import StorageFlow.Proofs.Session.Independence
import StorageFlow.Proofs.Session.Repetition
import StorageFlow.Proofs.Session.Safety
import StorageFlow.Proofs.Session.Selection
import StorageFlow.Proofs.Session.Sources
import StorageFlow.Proofs.Session.Success
import StorageFlow.Proofs.Solver.Counters
import StorageFlow.Proofs.Solver.Fixpoint
import StorageFlow.Proofs.Solver.Invariant
import StorageFlow.Proofs.Solver.Lockstep
import StorageFlow.Proofs.Solver.Renaming
import StorageFlow.Proofs.Solver.SetProblem
import StorageFlow.Proofs.Solver.Termination
import StorageFlow.Proofs.Solver.Transition
import StorageFlow.Proofs.Text.Offsets
import StorageFlow.Proofs.Validation.Meaning
import StorageFlow.Proofs.Worklist.History
import StorageFlow.Release
import StorageFlow.Session
import StorageFlow.Settings
import StorageFlow.Setup
import StorageFlow.Solution
import StorageFlow.Solver
import StorageFlow.Table
import StorageFlow.Text
import StorageFlow.Text.Blank
import StorageFlow.Text.Position
import StorageFlow.Text.Similarity
import StorageFlow.Text.Split
import StorageFlow.Text.Wrap
import StorageFlow.Validation
import StorageFlow.Worklist
