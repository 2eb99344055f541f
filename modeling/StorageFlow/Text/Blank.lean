/-
# StorageFlow.Text.Blank — blank characters, and trimming.

Blank are the ASCII tab, line feed, vertical tab, form feed, carriage return and space, every other
character of Unicode's category of space separators, the line and paragraph separators, and the byte order
mark.  All of them are single units.
-/
import StorageFlow.Text

namespace StorageFlow.Text

/-- Tells whether a unit is a blank character. -/
def isBlank (u : UInt16) : Bool :=
  let n := u.toNat
  (9 ≤ n && n ≤ 13) || n == 0x20 || n == 0xA0 || n == 0x1680 || (0x2000 ≤ n && n ≤ 0x200A) ||
    n == 0x2028 || n == 0x2029 || n == 0x202F || n == 0x205F || n == 0x3000 || n == 0xFEFF

/-- A text without the blanks at its end. -/
def trimEnd (t : Text) : Text := ⟨(t.units.reverse.dropWhile isBlank).reverse⟩

/-- A text without the blanks at its beginning and its end. -/
def trim (t : Text) : Text := trimEnd ⟨t.units.dropWhile isBlank⟩

end StorageFlow.Text
