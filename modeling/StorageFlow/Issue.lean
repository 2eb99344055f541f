/-
# StorageFlow.Issue — what can be wrong with a document.

An `Issue` says where a document departs from its schema and why.  The place is the path of keys and
indices from the root; the cause determines both the code of the issue and its wording.
-/
import StorageFlow.Number.Decimal

namespace StorageFlow

/-- One step from a document into a part of it. -/
inductive PathStep where
  | key (name : Text)
  | index (position : Number)
  deriving DecidableEq, Repr

/-- The text of a step. -/
def PathStep.text : PathStep → Text
  | key name => name
  | index position => position.text

/-- Why a part of a document is not what its schema asks for. -/
inductive IssueCause where
  | missing
  | wrongKind (expected received : Text)
  | notWhole
  | negative
  | tooFewItems (minimum : Nat)
  | wrongChoice (choices : List Text) (received : Text)
  | wrongVariant (variants : List Text)
  | unknownKeys (keys : List Text)
  | rule (message : Text)
  deriving DecidableEq, Repr

namespace IssueCause

/-- Expected texts, each between single quotes. -/
def quoted (separator : Text) (choices : List Text) : Text :=
  separator.intercalate (choices.map fun choice => "'" ++ choice ++ "'")

/-- The code of a cause. -/
def code : IssueCause → Text
  | missing => "invalid_type"
  | wrongKind .. => "invalid_type"
  | notWhole => "invalid_type"
  | negative => "too_small"
  | tooFewItems _ => "too_small"
  | wrongChoice .. => "invalid_enum_value"
  | wrongVariant _ => "invalid_union_discriminator"
  | unknownKeys _ => "unrecognized_keys"
  | rule _ => "custom"

/-- The wording of a cause. -/
def message : IssueCause → Text
  | missing => "Required"
  | wrongKind expected received => "Expected " ++ expected ++ ", received " ++ received
  | notWhole => "Expected integer, received float"
  | negative => "Number must be greater than or equal to 0"
  | tooFewItems minimum => "Array must contain at least " ++ Text.ofNat minimum ++ " element(s)"
  | wrongChoice choices received =>
    "Invalid enum value. Expected " ++ quoted " | " choices ++ ", received '" ++ received ++ "'"
  | wrongVariant variants => "Invalid discriminator value. Expected " ++ quoted " | " variants
  | unknownKeys keys => "Unrecognized key(s) in object: " ++ quoted ", " keys
  | rule message => message

end IssueCause

/-- A departure of a document from its schema. -/
structure Issue where
  path : List PathStep
  cause : IssueCause
  deriving DecidableEq, Repr

namespace Issue

/-- The path from the root in words. -/
def place (issue : Issue) : Text :=
  if issue.path.isEmpty then "root" else Text.intercalate " > " (issue.path.map PathStep.text)

/-- An issue as a list entry. -/
def text (issue : Issue) : Text := "- " ++ issue.cause.message ++ " at " ++ issue.place

end Issue

end StorageFlow
