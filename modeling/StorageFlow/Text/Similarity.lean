/-
# StorageFlow.Text.Similarity — how far two words are apart.

The distance of two words is the least number of edits that turn one into the other, where an edit adds,
removes or replaces a unit, or exchanges two neighbouring units, and no part is edited twice.
-/
import StorageFlow.Text

namespace StorageFlow.Text

universe u

variable {α : Type u} [DecidableEq α]

/-- Two rows of distances: from the prefixes of one word to two prefixes of another, the second one unit
longer than the first. -/
structure Rows where
  previous : List Nat
  current : List Nat

/-- The entry of a row. -/
def Rows.entry (row : List Nat) (i : Nat) : Nat := row[i]?.getD 0

/-- The distance for one more unit of the first word, the row so far standing newest first. -/
def extendRow (rows : Rows) (a : List α) (unit : α) (before : Option α) (row : List Nat) (i : Nat) : List Nat :=
  let here := a[i]?
  let cost := if here = some unit then 0 else 1
  let plain := min (row.headD 0 + 1) (min (Rows.entry rows.current (i + 1) + 1) (Rows.entry rows.current i + cost))
  -- The last two units of both prefixes are the same, in exchanged order.
  let exchange := 1 ≤ i ∧ before.isSome ∧ here = before ∧ a[i - 1]? = some unit
  (if exchange then min plain (Rows.entry rows.previous (i - 1) + 1) else plain) :: row

/-- The rows for one more unit of the second word. -/
def nextRows (a : List α) (unit : α) (before : Option α) (rows : Rows) : Rows :=
  let first := [Rows.entry rows.current 0 + 1]
  ⟨rows.current, ((List.range a.length).foldl (extendRow rows a unit before) first).reverse⟩

/-- The rows after reading the units of the second word. -/
def readRows (a : List α) : Option α → Rows → List α → Rows
  | _, rows, [] => rows
  | before, rows, unit :: units => readRows a (some unit) (nextRows a unit before rows) units

/-- The distance of two words. -/
def distance (a b : List α) : Nat :=
  let rows := readRows a none ⟨[], List.range (a.length + 1)⟩ b
  Rows.entry rows.current a.length

/-- Words further apart than this are not similar. -/
def farthest : Nat := 3

/-- The distance of two words; words whose lengths differ too much count as entirely different. -/
def boundedDistance (a b : List α) : Nat :=
  if farthest < max a.length b.length - min a.length b.length then max a.length b.length else distance a b

/-- Tells whether so few edits leave more than two fifths of a word. -/
def isSimilar (a b : List α) : Bool :=
  let length := max a.length b.length
  2 * length < 5 * (length - boundedDistance a b)

/-- The candidates that are nearest to a word, if they are similar to it. -/
def nearest (word : Text) (candidates : List Text) : List Text :=
  let close := candidates.filter fun c =>
    isSimilar word.units c.units && boundedDistance word.units c.units ≤ farthest
  -- Without a close candidate the least distance does not matter: nothing is left to be filtered.
  let best := (close.map fun c => boundedDistance word.units c.units).foldl min farthest
  close.filter fun c => boundedDistance word.units c.units == best

end StorageFlow.Text
