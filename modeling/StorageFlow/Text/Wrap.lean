/-
# StorageFlow.Text.Wrap — filling lines with words.

Words are put on a line as long as it stays within a width; a word that is longer than the width has a line
of its own.
-/
import StorageFlow.Text.Split

namespace StorageFlow.Text

/-- Adds words to a line that has been begun, and to the lines after it. -/
def fillFrom (width : Nat) (line : Text) : List Text → List Text
  | [] => [line]
  | word :: words =>
    if line.length + 1 + word.length ≤ width then fillFrom width (line ++ " " ++ word) words
    else line :: fillFrom width word words

/-- A text in lines of at most a width, broken at its blanks. -/
def fill (width : Nat) (t : Text) : List Text :=
  match t.splitAt (unit ' ') with
  | [] => []
  | word :: words => fillFrom width word words

/-- A text with blanks at its end, at least as long as a width. -/
def padEnd (width : Nat) (t : Text) : Text := t ++ ⟨List.replicate (width - t.length) (unit ' ')⟩

end StorageFlow.Text
