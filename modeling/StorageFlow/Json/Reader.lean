/-
# StorageFlow.Json.Reader — reading documents.

Two dialects of the written form are read: the strict standard one and a lenient one.  They share the
structure of arrays, objects and texts, the three literals and the shape of number tokens; a `Dialect` says
which units are blank, which number tokens are accepted and what they stand for, what a text may contain and
how its escapes are read, and which keys an object may have.  Reading either yields a document or fails;
nothing but blanks may follow the document.
-/
import StorageFlow.Json

namespace StorageFlow.Json

/-! ## Number tokens -/

/-- The parts of a number token.  Every part may be empty: a dialect decides what it accepts. -/
structure NumberToken where
  negative : Bool
  whole : List UInt16
  fraction : Option (List UInt16)
  -- The sign and the digits of the exponent, if there is one; the sign is `true` for minus.
  exponent : Option (Option Bool × List UInt16)

namespace NumberToken

/-- Reads a given character in front. -/
def takeChar? (c : Char) : List UInt16 → Option (List UInt16)
  | [] => none
  | u :: us => if u = Text.unit c then some us else none

/-- Reads the digits in front. -/
def takeDigits (us : List UInt16) : List UInt16 × List UInt16 := (us.takeWhile isDigit, us.dropWhile isDigit)

/-- Reads a point and the digits after it. -/
def takeFraction (us : List UInt16) : Option (List UInt16) × List UInt16 :=
  match takeChar? '.' us with
  | some rest => (some (takeDigits rest).1, (takeDigits rest).2)
  | none => (none, us)

/-- Reads a sign: `true` is minus. -/
def takeSign (us : List UInt16) : Option Bool × List UInt16 :=
  match takeChar? '-' us, takeChar? '+' us with
  | some rest, _ => (some true, rest)
  | none, some rest => (some false, rest)
  | none, none => (none, us)

/-- Reads an exponent mark, an optional sign and digits. -/
def takeExponent (us : List UInt16) : Option (Option Bool × List UInt16) × List UInt16 :=
  match takeChar? 'e' us <|> takeChar? 'E' us with
  | some rest =>
    let (sign, rest) := takeSign rest
    (some (sign, (takeDigits rest).1), (takeDigits rest).2)
  | none => (none, us)

/-- Reads the longest number token in front. -/
def take (us : List UInt16) : NumberToken × List UInt16 :=
  let (negative, us) := match takeChar? '-' us with
    | some rest => (true, rest)
    | none => (false, us)
  let (whole, us) := takeDigits us
  let (fraction, us) := takeFraction us
  let (exponent, us) := takeExponent us
  (⟨negative, whole, fraction, exponent⟩, us)

/-- The number of units of a token. -/
def length (t : NumberToken) : Nat :=
  (if t.negative then 1 else 0) + t.whole.length +
    (match t.fraction with | none => 0 | some digits => 1 + digits.length) +
    (match t.exponent with
      | none => 0
      | some (sign, digits) => 1 + (if sign.isSome then 1 else 0) + digits.length)

/-- The number a token stands for, if it is finite. -/
def number? (t : NumberToken) : Option Number :=
  let fraction := t.fraction.getD []
  let exponent : Int := match t.exponent with
    | none => 0
    | some (sign, digits) => if sign == some true then -(natOfDigits digits) else natOfDigits digits
  Number.ofDecimal? t.negative (natOfDigits (t.whole ++ fraction)) (exponent - fraction.length)

end NumberToken

/-! ## Texts -/

/-- The value of a hexadecimal digit. -/
def hexValue? (u : UInt16) : Option Nat :=
  if isDigit u then some (u - Text.unit '0').toNat
  else if Text.unit 'a' ≤ u && u ≤ Text.unit 'f' then some ((u - Text.unit 'a').toNat + 10)
  else if Text.unit 'A' ≤ u && u ≤ Text.unit 'F' then some ((u - Text.unit 'A').toNat + 10)
  else none

/-- The unit that a one-letter escape stands for.  A slash needs no escape, but may have one. -/
def shortEscape? (letter : UInt16) : Option UInt16 :=
  if letter = Text.unit '/' then some letter
  else (shortEscapes.find? fun (_, l) => Text.unit l == letter).map fun (c, _) => Text.unit c

/-- The unit at both ends of a text. -/
def quoteMark : UInt16 := Text.unit '"'

/-- The unit that begins an escape. -/
def backslash : UInt16 := Text.unit '\\'

/-! ## Documents -/

/-- What distinguishes one written form of documents from another. -/
structure Dialect where
  isBlank : UInt16 → Bool
  -- The document a number token stands for, if it is accepted.
  number : NumberToken → Option Json
  -- Units that may stand in a text as they are.
  isPlain : UInt16 → Bool
  escape : List UInt16 → Option (UInt16 × List UInt16)
  length_escape : ∀ {us u rest}, escape us = some (u, rest) → rest.length < us.length
  admits : Text → Bool

namespace Dialect

variable (d : Dialect)

/-- The units from the first one that is not blank. -/
def skip (us : List UInt16) : List UInt16 := us.dropWhile d.isBlank

/-- The character that comes next, and what follows it.  A surrogate counts as a character that has no
meaning between tokens. -/
def next (us : List UInt16) : Option (Char × List UInt16) :=
  match d.skip us with
  | [] => none
  | u :: rest => some (Text.charOfUnit u, rest)

/-- Reads a text from behind its opening quote; the units already read stand newest first. -/
def text (read : List UInt16) : List UInt16 → Option (Text × List UInt16)
  | [] => none
  | u :: rest =>
    if u = quoteMark then some (⟨read.reverse⟩, rest)
    else if u = backslash then
      match _read : d.escape rest with
      | some (unit, after) => text (unit :: read) after
      | none => none
    else if d.isPlain u then text (u :: read) rest
    else none
termination_by us => us.length
decreasing_by
  · exact Nat.lt_succ_of_lt (d.length_escape _read)
  · exact Nat.lt_succ_self _

/-- The literals. -/
def literals : List (Text × Json) := [("true", .bool true), ("false", .bool false), ("null", .null)]

/-- Reads a literal. -/
def readLiteral (us : List UInt16) : Option (Json × List UInt16) :=
  literals.findSome? fun (word, value) =>
    if word.units.isPrefixOf us then some (value, us.drop word.length) else none

/-- Reads a number. -/
def readNumber (us : List UInt16) : Option (Json × List UInt16) :=
  let (token, rest) := NumberToken.take us
  (d.number token).map fun number => (number, rest)

/-- Reads a literal, a number or a text: whatever is neither an array nor an object. -/
def readScalar : List UInt16 → Option (Json × List UInt16)
  | [] => none
  | u :: us =>
    if u = quoteMark then (d.text [] us).map fun (t, rest) => (.string t, rest)
    else if u = Text.unit '-' || isDigit u then d.readNumber (u :: us)
    else readLiteral (u :: us)

/-- Reads a key that an object may have, and the colon behind it. -/
def readKey (us : List UInt16) : Option (Text × List UInt16) := do
  let ('"', rest) ← d.next us | none
  let (key, rest) ← d.text [] rest
  let (':', rest) ← d.next rest | none
  if d.admits key then some (key, rest) else none

mutual

/-- Reads a document, using at most as many steps as the first argument says. -/
def readValue : Nat → List UInt16 → Option (Json × List UInt16)
  | 0, _ => none
  | fuel + 1, us =>
    match d.next us with
    | some ('\x7b', rest) =>
      match d.next rest with
      | some ('\x7d', rest) => some (.object [], rest)
      | _ => readFields fuel [] rest
    | some ('[', rest) =>
      match d.next rest with
      | some (']', rest) => some (.array [], rest)
      | _ => readItems fuel [] rest
    | _ => d.readScalar (d.skip us)

/-- Reads the remaining items of an array; the items already read stand newest first. -/
def readItems : Nat → List Json → List UInt16 → Option (Json × List UInt16)
  | 0, _, _ => none
  | fuel + 1, items, us => do
    let (item, rest) ← readValue fuel us
    match d.next rest with
    | some (']', rest) => some (.array (item :: items).reverse, rest)
    | some (',', rest) => readItems fuel (item :: items) rest
    | _ => none

/-- Reads the remaining fields of an object; the fields already read stand newest first. -/
def readFields : Nat → List (Text × Json) → List UInt16 → Option (Json × List UInt16)
  | 0, _, _ => none
  | fuel + 1, fields, us => do
    let (key, rest) ← d.readKey us
    let (value, rest) ← readValue fuel rest
    match d.next rest with
    | some ('\x7d', rest) => some (Json.ofFields ((key, value) :: fields).reverse, rest)
    | some (',', rest) => readFields fuel ((key, value) :: fields) rest
    | _ => none

end

/-- The document that a text consists of.  Every two steps read a unit, so twice as many steps as there are
units are enough. -/
def read (source : Text) : Option Json := do
  let (document, rest) ← d.readValue (2 * source.length + 2) source.units
  if (d.skip rest).isEmpty then some document else none

end Dialect

end StorageFlow.Json
