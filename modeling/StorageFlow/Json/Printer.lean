/-
# StorageFlow.Json.Printer — the written form of documents.

A document is written on one line, or with one item or field a line, each level indented by two more
blanks.  Empty arrays and objects are always written on one line.  In texts the quote, the backslash,
control characters and the invisible characters listed in `isEscaped` are escaped; a surrogate is written as
it is, whether it has a partner or not.
-/
import StorageFlow.Json
import StorageFlow.Number.Decimal

namespace StorageFlow.Json

/-- The units that are written as four hexadecimal digits, unless they have a short escape. -/
def isEscaped (u : UInt16) : Bool :=
  let n := u.toNat
  n ≤ 0x1F || (0x7F ≤ n && n ≤ 0x9F) || n == 0xAD || (0x600 ≤ n && n ≤ 0x604) || n == 0x70F ||
    n == 0x17B4 || n == 0x17B5 || (0x200C ≤ n && n ≤ 0x200F) || (0x2028 ≤ n && n ≤ 0x202F) ||
    (0x2060 ≤ n && n ≤ 0x206F) || n == 0xFEFF || (0xFFF0 ≤ n && n ≤ 0xFFFF)

/-- A unit in four hexadecimal digits. -/
def hexDigits4 (u : UInt16) : List Char :=
  let n := u.toNat
  [n / 0x1000 % 16, n / 0x100 % 16, n / 0x10 % 16, n % 16].map Nat.digitChar

/-- The letter behind the backslash of a short escape, if a unit has one. -/
def escapeLetter? (u : UInt16) : Option Char :=
  (shortEscapes.find? fun (c, _) => Text.unit c == u).map Prod.snd

/-- A unit as it is written in a text. -/
def escape (u : UInt16) : List UInt16 :=
  match escapeLetter? u with
  | some letter => ['\\', letter].map Text.unit
  | none => if isEscaped u then ('\\' :: 'u' :: hexDigits4 u).map Text.unit else [u]

/-- A text between quotes. -/
def quote (t : Text) : Text := "\"" ++ ⟨t.units.flatMap escape⟩ ++ "\""

/-- How a document is laid out. -/
inductive Layout where
  | compact
  -- One item or field a line, the enclosing level indented by the given number of blanks.
  | indented (margin : Nat)
  deriving DecidableEq, Repr

namespace Layout

/-- The layout of the items of a level. -/
def inner : Layout → Layout
  | compact => compact
  | indented margin => indented (margin + 2)

/-- What separates a key from its value. -/
def colon : Layout → Text
  | compact => ":"
  | indented _ => ": "

/-- The line break in front of something on this level. -/
def lineBreak : Layout → Text
  | compact => ""
  | indented margin => Text.ofChars ('\n' :: List.replicate margin ' ')

/-- Items between brackets. -/
def enclose (layout : Layout) (opening closing : Text) (items : List Text) : Text :=
  if items.isEmpty then opening ++ closing
  else
    let separator := "," ++ layout.inner.lineBreak
    opening ++ (layout.inner.lineBreak ++
      (Text.intercalate separator items ++ (layout.lineBreak ++ closing)))

end Layout

mutual

/-- A document in a layout. -/
def render (layout : Layout) : Json → Text
  | .null => "null"
  | .bool value => if value then "true" else "false"
  | .number value => value.text
  | .string value => quote value
  | .array items => layout.enclose "[" "]" (renderItems layout.inner items)
  | .object fields => layout.enclose "\x7b" "\x7d" (renderFields layout.inner fields)

/-- The items of an array. -/
def renderItems (layout : Layout) : List Json → List Text
  | [] => []
  | item :: items => render layout item :: renderItems layout items

/-- The fields of an object. -/
def renderFields (layout : Layout) : List (Text × Json) → List Text
  | [] => []
  | (key, value) :: fields =>
    (quote key ++ layout.colon ++ render layout value) :: renderFields layout fields

end

/-- A document on one line. -/
def compact (document : Json) : Text := render .compact document

/-- A document with one item or field a line. -/
def pretty (document : Json) : Text := render (.indented 0) document

end StorageFlow.Json
