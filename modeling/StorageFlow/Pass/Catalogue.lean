/-
# StorageFlow.Pass.Catalogue — the built-in passes, by name.

Behind a name of the catalogue stands a built-in pass or nothing, with one exception: some names are taken by
what every table of names has of its own.  What stands behind those is no pass.  Two of them are taken for
passes all the same and fail as soon as they are executed, and the others cannot be loaded.
-/
import StorageFlow.Pass.UninitializedAccess

namespace StorageFlow.Pass

/-- The built-in pass with a name. -/
def builtIn? (order : Order) (name : Text) : Option Pass :=
  if name = UninitializedAccess.id then some (UninitializedAccess.pass order) else none

/-- The names of the built-in passes are those that a configuration may use. -/
theorem isSome_builtIn?_iff (order : Order) (name : Text) :
    (builtIn? order name).isSome = true ↔ name ∈ builtInPassNames := by
  unfold builtIn? builtInPassNames UninitializedAccess.id
  split <;> simp_all

/-! ## Names that are taken -/

/-- What is taken for a pass without being one. -/
def formless : Pass where
  id := none
  check _ := Action.fail (.misuse "pass.analyze is not a function")

/-- What stands behind a name of the catalogue. -/
inductive Listing where
  | pass (found : Pass)
  | nothing
  | unloadable (reason : Failure)

/-- The names that are taken, and what stands behind them. -/
def taken : List (Text × Listing) :=
  let noObject : Listing := .unloadable (.misuse "Cannot convert undefined or null to object")
  [("constructor", .pass formless),
    ("toString", .pass formless),
    ("hasOwnProperty", noObject),
    ("isPrototypeOf", noObject),
    ("propertyIsEnumerable", noObject),
    ("valueOf", noObject),
    ("toLocaleString",
      .unloadable (.misuse "Object.prototype.toLocaleString called on null or undefined")),
    ("__proto__", .unloadable (.misuse "passLoader is not a function")),
    ("__defineGetter__", noObject),
    ("__defineSetter__", noObject),
    ("__lookupGetter__", noObject),
    ("__lookupSetter__", noObject)]

/-- What stands behind a name. -/
def listing (order : Order) (name : Text) : Listing :=
  match builtIn? order name with
  | some pass => .pass pass
  | none => (Table.find? name taken).getD .nothing

/-! ## Looking for passes -/

/-- Looks for a built-in pass, and tells why there is none with the name. -/
def findBuiltIn (order : Order) (name : Text) : Action (Option Pass) :=
  match listing order name with
  | .pass pass => return some pass
  | .nothing => do
    Action.log .warn ("Built-in pass " ++ name ++ " not found.")
    return none
  | .unloadable reason => do
    Action.log .error ("Error loading built-in pass " ++ name ++ ": " ++ reason.heading)
    return none

/-- Looks for several built-in passes. -/
def findAll (order : Order) : List Text → Action (List (Text × Option Pass))
  | [] => return []
  | name :: names => do
    -- Every missing pass is told about before the first of them ends the search.
    let found ← findBuiltIn order name
    let others ← findAll order names
    return (name, found) :: others

/-- The passes that were found, or the failure that the first missing one is missing. -/
def requireAll : List (Text × Option Pass) → Except Failure (List Pass)
  | [] => .ok []
  | (name, none) :: _ => .error (.mistake (.passNotFound name))
  | (_, some pass) :: rest => (requireAll rest).map (pass :: ·)

end StorageFlow.Pass
