/-
# StorageFlow.Program.Syntax — source units and their declarations.

The analysis reads declarations only to find the functions with bodies, in the order in which they are
declared: a contract's methods stand at the place of the contract.  A source unit that was not made by this
library may hold declarations of kinds that have no meaning here; looking for functions then fails, and the
failure shows the declaration.
-/
import StorageFlow.Diagnostic

namespace StorageFlow.Program

/-- The declaration of a function. -/
structure FunctionDefinition where
  id : Number
  name : Text
  implemented : Bool
  location : Location
  deriving DecidableEq

/-- Something with a name that is not looked into. -/
structure Entity where
  id : Number
  name : Text
  location : Location
  deriving DecidableEq

/-- A member of a contract. -/
inductive Member where
  | function (f : FunctionDefinition)
  | stateVariable (e : Entity)
  | struct (e : Entity)
  | event (e : Entity)
  | foreign (node : Json)

/-- A declaration at the top level of a source unit. -/
inductive Declaration where
  | contract (e : Entity) (members : List Member)
  | function (f : FunctionDefinition)
  | struct (e : Entity)
  | importDirective (id : Number) (path : Text) (location : Location)
  | pragma (id : Number) (literals : List Text) (location : Location)
  | foreign (node : Json)

/-- A source unit. -/
structure SourceUnit where
  path : Text
  content : Option Text
  nodes : List Declaration

/-! ## Source units as documents -/

/-- A node with its kind in front and its location at the end. -/
def nodeJson (kind : Text) (fields : List (Text × Json)) (location : Location) : Json :=
  .object (("kind", .string kind) :: fields.concat ("loc", location.toJson))

/-- A named entity of a kind as a document. -/
def Entity.toJson (kind : Text) (e : Entity) (fields : List (Text × Json)) : Json :=
  nodeJson kind (("id", .number e.id) :: ("name", .string e.name) :: fields) e.location

/-- A function as a document. -/
def FunctionDefinition.toJson (f : FunctionDefinition) : Json :=
  Entity.toJson "function_def" ⟨f.id, f.name, f.location⟩ [("implemented", .bool f.implemented)]

/-- A member as a document. -/
def Member.toJson : Member → Json
  | .function f => f.toJson
  | .stateVariable e => e.toJson "state_variable" []
  | .struct e => e.toJson "struct_def" []
  | .event e => e.toJson "event_def" []
  | .foreign node => node

/-- A declaration as a document. -/
def Declaration.toJson : Declaration → Json
  | .contract e members => e.toJson "contract_def" [("members", .array (members.map Member.toJson))]
  | .function f => f.toJson
  | .struct e => e.toJson "struct_def" []
  | .importDirective id path location =>
    nodeJson "import" [("id", .number id), ("path", .string path)] location
  | .pragma id literals location =>
    nodeJson "pragma" [("id", .number id), ("literals", Json.ofTexts literals)] location
  | .foreign node => node

/-- A source unit as a document; an unknown text is null. -/
def SourceUnit.toJson (s : SourceUnit) : Json :=
  .object [("path", .string s.path), ("content", (s.content.map Json.string).getD .null),
    ("nodes", .array (s.nodes.map Declaration.toJson))]

/-! ## Functions with bodies -/

/-- The function itself, if it has a body. -/
def FunctionDefinition.ifImplemented (f : FunctionDefinition) : List FunctionDefinition :=
  if f.implemented then [f] else []

/-- The functions with bodies that a member is. -/
def Member.implementedFunctions : Member → Except Failure (List FunctionDefinition)
  | .function f => .ok f.ifImplemented
  | .stateVariable _ | .struct _ | .event _ => .ok []
  | .foreign node => .error (.impossible node)

/-- The functions with bodies among members. -/
def membersFunctions : List Member → Except Failure (List FunctionDefinition)
  | [] => .ok []
  | m :: ms => do return (← m.implementedFunctions) ++ (← membersFunctions ms)

/-- The functions with bodies in a declaration. -/
def Declaration.implementedFunctions : Declaration → Except Failure (List FunctionDefinition)
  | .function f => .ok f.ifImplemented
  | .contract _ members => membersFunctions members
  | .struct _ | .importDirective .. | .pragma .. => .ok []
  | .foreign node => .error (.impossible node)

/-- The functions with bodies among declarations. -/
def declarationsFunctions : List Declaration → Except Failure (List FunctionDefinition)
  | [] => .ok []
  | d :: ds => do return (← d.implementedFunctions) ++ (← declarationsFunctions ds)

/-- The functions with bodies in some source units, in the order of their declarations. -/
def implementedFunctions (sources : List SourceUnit) : Except Failure (List FunctionDefinition) :=
  declarationsFunctions (sources.flatMap SourceUnit.nodes)

end StorageFlow.Program
