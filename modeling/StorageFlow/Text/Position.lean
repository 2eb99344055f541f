/-
# StorageFlow.Text.Position — offsets as lines and columns.

A position is a line and a column, both counted from one; columns count code units.  The position of an
offset is read off the part of the text before it: one line more than it has line feeds, and one column
more than it has units after the last of them.  An offset past the end stands at the end; a negative one
counts back from the end and stops at the beginning.  A fraction of an offset does not count.
-/
import StorageFlow.Number
import StorageFlow.Text.Split

namespace StorageFlow.Text

/-- A place in a text, both coordinates counted from one. -/
structure Position where
  line : Nat
  -- The number of the column, in code units.
  column : Nat
  deriving DecidableEq, Repr

/-- The units before an offset. -/
def before (text : List UInt16) (offset : Int) : List UInt16 :=
  -- Counting back beyond the beginning leaves a negative number, which stands for no units at all.
  if 0 ≤ offset then text.take offset.toNat else text.take (text.length + offset).toNat

/-- The position reached after reading some units from the beginning of a text. -/
def endPosition (read : List UInt16) : Position :=
  let pieces := split lineFeed read
  ⟨pieces.length, (pieces.getLast (split_ne_nil lineFeed read)).length + 1⟩

/-- The position of an offset. -/
def position (text : List UInt16) (offset : Int) : Position := endPosition (before text offset)

/-- The position of an offset in a text. -/
def positionOf (content : Text) (offset : Number) : Position := position content.units offset.truncate

end StorageFlow.Text
