/-
# StorageFlow.Text.Split — cutting a sequence at a separator.

`split sep xs` lists the maximal runs of `xs` without `sep`, empty ones included: a sequence with `n`
separators has `n + 1` pieces, and the empty sequence has one piece, which is empty.
-/
import StorageFlow.Text

namespace StorageFlow.Text

universe u

variable {α : Type u} [DecidableEq α]

/-- Puts an element in front of the first piece. -/
def extendFirst (x : α) : List (List α) → List (List α)
  | [] => [[x]]
  | piece :: pieces => (x :: piece) :: pieces

/-- The pieces of a sequence between the occurrences of a separator. -/
def split (sep : α) : List α → List (List α)
  | [] => [[]]
  | x :: xs => if x = sep then [] :: split sep xs else extendFirst x (split sep xs)

omit [DecidableEq α] in
theorem length_extendFirst {x : α} {pieces : List (List α)} (h : pieces ≠ []) :
    (extendFirst x pieces).length = pieces.length := by
  cases pieces with
  | nil => exact absurd rfl h
  | cons p ps => rfl

/-- There is always a piece. -/
theorem split_ne_nil (sep : α) (xs : List α) : split sep xs ≠ [] := by
  cases xs with
  | nil => simp [split]
  | cons x xs =>
    simp only [split]
    split
    · simp
    · cases split sep xs <;> simp [extendFirst]

/-- There is one piece more than there are separators. -/
theorem length_split (sep : α) (xs : List α) : (split sep xs).length = xs.count sep + 1 := by
  induction xs with
  | nil => rfl
  | cons x xs ih =>
    simp only [split]
    split
    · next h => simp [h, ih]
    · next h =>
      rw [length_extendFirst (split_ne_nil sep xs), ih, List.count_cons_of_ne]
      exact fun e => h e

/-- The parts of a text between the occurrences of a unit. -/
def splitAt (t : Text) (sep : UInt16) : List Text := (split sep t.units).map Text.mk

/-- The unit that ends a line. -/
def lineFeed : UInt16 := unit '\n'

/-- The lines of a text: what stands between its line feeds. -/
def lines (t : Text) : List Text := t.splitAt lineFeed

end StorageFlow.Text
