/-
# StorageFlow.Json — documents.

A document is a tree of objects and arrays over texts, numbers, truth values and null.  The fields of an
object stand in their *enumeration order*: keys that are array indices first, in increasing order, then the
other keys in the order of their first appearance.  A key that appears twice keeps its first place and its
last value.
-/
import StorageFlow.Number
import StorageFlow.Table
import StorageFlow.Text

namespace StorageFlow

/-- A document. -/
inductive Json where
  | null
  | bool (value : Bool)
  | number (value : Number)
  | string (value : Text)
  | array (items : List Json)
  | object (fields : List (Text × Json))
  deriving Inhabited

namespace Json

/-- Array indices lie below this bound. -/
def indexBound : Nat := 0xFFFFFFFF

/-- Tells whether a unit is a decimal digit. -/
def isDigit (u : UInt16) : Bool := Text.unit '0' ≤ u && u ≤ Text.unit '9'

/-- The natural number that a list of digits spells. -/
def natOfDigits (digits : List UInt16) : Nat :=
  digits.foldl (fun n u => n * 10 + (u - Text.unit '0').toNat) 0

/-- The characters that a text may hold as a short escape, each with the letter behind its backslash. -/
def shortEscapes : List (Char × Char) :=
  [('"', '"'), ('\\', '\\'), ('\x08', 'b'), ('\x0c', 'f'), ('\n', 'n'), ('\r', 'r'), ('\t', 't')]

/-- The array index that a key spells, without sign and without leading zeros. -/
def arrayIndex? (key : Text) : Option Nat :=
  let digits := key.units
  let hasLeadingZero := digits.head? == some (Text.unit '0') && digits.length != 1
  if digits.isEmpty || !digits.all isDigit || hasLeadingZero then none
  else
    let n := natOfDigits digits
    if n < indexBound then some n else none

/-- Puts a field before the first one with a greater index. -/
def insertByIndex (index : Nat) (field : Text × Json) :
    List (Nat × Text × Json) → List (Nat × Text × Json)
  | [] => [(index, field)]
  | (i, f) :: rest =>
    if index < i then (index, field) :: (i, f) :: rest else (i, f) :: insertByIndex index field rest

/-- The fields of an object in enumeration order. -/
def enumerate (fields : List (Text × Json)) : List (Text × Json) :=
  let indexed := fields.foldl (fun sorted field => match arrayIndex? field.1 with
    | some i => insertByIndex i field sorted
    | none => sorted) []
  -- Keys that are no indices keep the order of their first appearance.
  indexed.map Prod.snd ++ fields.filter fun field => (arrayIndex? field.1).isNone

/-- The object that a sequence of fields describes. -/
def ofFields (fields : List (Text × Json)) : Json := .object (enumerate (Table.ofList fields).entries)

/-- A natural number as a document. -/
def ofNat (n : Nat) : Json := .number (Number.ofNat n)

/-- A list of texts as a document. -/
def ofTexts (texts : List Text) : Json := .array (texts.map .string)

/-- The value of a field, if the document is an object that has the field. -/
def field? (key : Text) : Json → Option Json
  | .object fields => Table.find? key fields
  | _ => none

/-- The name of the kind of a document. -/
def kindName : Json → Text
  | .null => "null"
  | .bool _ => "boolean"
  | .number _ => "number"
  | .string _ => "string"
  | .array _ => "array"
  | .object _ => "object"

end Json

end StorageFlow
