/-
# StorageFlow.Program.Loader — compilation units from program documents.

Loading checks a document against its schema and then function by function: identifiers of functions are
unique in a program, a function with a body has a flow, identifiers of variables are unique in a function,
occurrences name variables of their function, and references to nodes lead to nodes.  The first violation
ends the loading.  What was checked is handed to a flow under construction, and the finished flow is
registered; both check again what they are given.
-/
import StorageFlow.Action
import StorageFlow.Files
import StorageFlow.FiniteSet
import StorageFlow.Flow.Builder
import StorageFlow.Json.Lenient
import StorageFlow.Program.Schema
import StorageFlow.Program.Unit

namespace StorageFlow.Program

/-! ## Declarations -/

/-- The declaration of a function in a file. -/
def FunctionDocument.toDefinition (f : FunctionDocument) (file : Text) : FunctionDefinition :=
  ⟨.ofNat f.id, f.name, f.implemented, f.span.inFile file⟩

/-- A named entity in a file. -/
def EntityDocument.toEntity (e : EntityDocument) (file : Text) : Entity :=
  ⟨.ofNat e.id, e.name, e.span.inFile file⟩

/-- A member of a contract in a file. -/
def MemberDocument.toMember (file : Text) : MemberDocument → Member
  | .function f => .function (f.toDefinition file)
  | .stateVariable e => .stateVariable (e.toEntity file)
  | .struct e => .struct (e.toEntity file)
  | .event e => .event (e.toEntity file)

/-- A top-level declaration in a file. -/
def DeclarationDocument.toDeclaration (file : Text) : DeclarationDocument → Declaration
  | .contract e members => .contract (e.toEntity file) (members.map (MemberDocument.toMember file))
  | .function f => .function (f.toDefinition file)
  | .struct e => .struct (e.toEntity file)
  | .importDirective id path span => .importDirective (.ofNat id) path (span.inFile file)
  | .pragma id literals span => .pragma (.ofNat id) literals (span.inFile file)

/-- A source unit. -/
def SourceDocument.toSourceUnit (s : SourceDocument) : SourceUnit :=
  ⟨s.path, s.content, s.nodes.map (DeclarationDocument.toDeclaration s.path)⟩

/-! ## Flows -/

namespace PlacedFunction

variable (f : PlacedFunction)

/-- The variable of a declaration at a slot. -/
def variableAt (slot : Nat) (v : VariableDocument) : Variable :=
  ⟨.ofNat f.function.id, slot, .ofNat v.id, v.name, v.storage, v.span.inFile f.file⟩

/-- The variables of the declarations from a slot on, by identifier. -/
def localsFrom : Nat → Table Nat Variable → List VariableDocument → Except Failure (Table Nat Variable)
  | _, known, [] => .ok known
  | slot, known, v :: vs =>
    if known.contains v.id then .error (.mistake (.variableTwice f.file (.ofNat v.id) f.function.name))
    else localsFrom (slot + 1) (known.set v.id (f.variableAt slot v)) vs

/-- The variables of the function, by identifier. -/
def locals : Except Failure (Table Nat Variable) :=
  f.localsFrom 0 Table.empty f.function.locals

/-- The variable with an identifier. -/
def lookUp (known : Table Nat Variable) (id : Nat) : Except Failure Variable :=
  match known.get? id with
  | some v => .ok v
  | none => .error (.execution (.variableUnknown f.file (.ofNat id) f.function.name) (some f.location))

/-- Records a touch of a variable at the end of a node.  A declaration is recorded without a site. -/
def recordTouch (b : Flow.Builder) (node : Nat) (o : OccurrenceDocument) (v : Variable) :
    Except Failure Flow.Builder :=
  let site := o.site.map fun s => s.inFile f.file
  match o.touch with
  | .declaration => b.declare (.ofNat node) v
  | .assignment => b.assign (.ofNat node) v site
  | .inlineReference => b.inlineReference (.ofNat node) v site
  | .access => b.access (.ofNat node) v site

/-- Records the occurrences of a node. -/
def recordAll (known : Table Nat Variable) (node : Nat) :
    Flow.Builder → List OccurrenceDocument → Except Failure Flow.Builder
  | b, [] => .ok b
  | b, o :: os => do
    let v ← f.lookUp known o.target
    let b ← f.recordTouch b node o v
    recordAll known node b os

/-- A reference to a node of a flow with some number of nodes. -/
def target (size : Nat) (role : EdgeRole) (index : Nat) : Except Failure Number :=
  if index < size then .ok (.ofNat index)
  else .error (.execution (.nodeUnknown f.file role f.function.name (.ofNat index) size) (some f.location))

/-- Adds the edges of a node. -/
def addEdges (size node : Nat) : Flow.Builder → List Nat → Except Failure Flow.Builder
  | b, [] => .ok b
  | b, index :: indices => do
    let target ← f.target size (.edgeOf node) index
    let b ← b.addEdge (.ofNat node) target
    addEdges size node b indices

/-- Fills the nodes from a position on: the occurrences of a node are looked at before its edges. -/
def fillFrom (known : Table Nat Variable) (size : Nat) :
    Nat → Flow.Builder → List NodeDocument → Except Failure Flow.Builder
  | _, b, [] => .ok b
  | position, b, n :: ns => do
    let b ← f.recordAll known position b n.occurrences
    let b ← f.addEdges size position b n.exits
    fillFrom known size (position + 1) b ns

/-- The flow of the function under construction, with as many blank nodes as the document has nodes. -/
def openFlow (d : FlowDocument) : Flow.Builder :=
  d.nodes.foldl (fun b _ => b.addNode.1) (.start (.ofNat f.function.id) f.function.name)

/-- The flow of the function: variables first, then the nodes, the entry and the exit. -/
def convertFlow (d : FlowDocument) : Except Failure Flow := do
  let known ← f.locals
  let b ← f.fillFrom known d.nodes.length 0 (f.openFlow d) d.nodes
  let entry ← f.target d.nodes.length .entry d.entry
  let exit ← f.target d.nodes.length .exit d.exit
  b.build entry exit

end PlacedFunction

/-! ## Programs -/

/-- What is known of the functions that have been loaded. -/
structure Progress where
  known : FiniteSet Nat
  flows : Flow.Registry

/-- Nothing has been loaded. -/
def Progress.start : Progress := ⟨FiniteSet.empty, Flow.Registry.empty⟩

/-- What becomes of a function. -/
inductive FunctionOutcome where
  | bodiless
  -- It has no body, yet a flow was given.
  | flowIgnored
  | analysable (flow : Flow)

/-- Checks a function, given the identifiers of those before it. -/
def PlacedFunction.load (f : PlacedFunction) (known : FiniteSet Nat) : Except Failure FunctionOutcome :=
  if f.function.id ∈ known then
    .error (.execution (.functionTwice f.file (.ofNat f.function.id) f.function.name) (some f.location))
  else
    match f.function.implemented, f.function.flow with
    | false, none => .ok .bodiless
    | false, some _ => .ok .flowIgnored
    | true, none => .error (.execution (.flowMissing f.file f.function.name) (some f.location))
    | true, some d => (f.convertFlow d).map .analysable

/-- The progress after one more function. -/
def Progress.add (p : Progress) (f : PlacedFunction) (outcome : FunctionOutcome) : Except Failure Progress :=
  match outcome with
  | .analysable flow => (p.flows.register flow).map fun flows => ⟨p.known.insert f.function.id, flows⟩
  | .bodiless | .flowIgnored => .ok ⟨p.known.insert f.function.id, p.flows⟩

/-- Loads a function.  A flow that is ignored is worth a warning. -/
def loadFunction (p : Progress) (f : PlacedFunction) : Action Progress := do
  let outcome ← Action.ofExcept (f.load p.known)
  match outcome with
  | .flowIgnored =>
    Action.log .warn (f.file ++ ": ignoring the CFG of " ++ f.function.name ++ " which has no body")
  | .bodiless | .analysable _ => pure ()
  Action.ofExcept (p.add f outcome)

/-- Loads functions one after the other. -/
def loadFunctions : Progress → List PlacedFunction → Action Progress
  | p, [] => return p
  | p, f :: fs => do loadFunctions (← loadFunction p f) fs

/-- Loads a program that matches its schema. -/
def loadDocument (projectName : Text) (d : ProgramDocument) : Action CompilationUnit := do
  let name := d.name.getD projectName
  let p ← loadFunctions Progress.start d.functions
  Action.log .debug (name ++ ": loaded " ++ Text.ofNat d.sources.length ++ " source unit(s) and " ++
    Text.ofNat p.flows.size ++ " function CFG(s)")
  return ⟨name, d.sources.map SourceDocument.toSourceUnit, p.flows⟩

/-- What stands above a list of issues with a program document. -/
def heading (origin : Text) : Text := "Incorrect program file " ++ origin ++ ":"

/-- Loads a program document.  The project name is used unless the document has one; the origin is shown in
failures. -/
def loadJson (j : Json) (projectName origin : Text) : Action CompilationUnit := do
  let d ← Action.ofExcept <|
    (program (some j)).toExcept.mapError fun issues => (Failure.invalid issues).attributeTo (heading origin) ""
  loadDocument projectName d

/-- The document in a program file. -/
def readFile (fs : Files) (path : AbsolutePath) : Except Failure Json :=
  match fs.readAt path with
  -- Only a file that is not there is told apart; what cannot be read counts as unreadable contents.
  | .error .missing => .error (.mistake (.programMissing path.text))
  | .error fault => .error (.mistake (.programUnreadable path.text fault))
  | .ok content =>
    match Json.Lenient.read content with
    | some j => .ok j
    | none => .error (.mistake (.programMalformed path.text))

/-- Loads a program file.  The project is named after the file. -/
def loadFile (fs : Files) (path : Text) : Action CompilationUnit := do
  let resolved := AbsolutePath.resolve fs.workingDirectory path
  let j ← Action.ofExcept (readFile fs resolved)
  loadJson j (resolved.baseName ".json") resolved.text

end StorageFlow.Program
