/-
# StorageFlow.CommandLine.Help — the explanation of the command line.

The switches are explained in two columns.  The text fits into eighty columns: the explanations are filled
into what the names of the switches leave.
-/
import StorageFlow.CommandLine.Switch
import StorageFlow.Text.Wrap

namespace StorageFlow.CommandLine.Help

/-- The switches that are explained. -/
def switches : List Switch := Switch.table ++ [Switch.help]

/-- The width of the column of names, with the gap behind it. -/
def nameWidth : Nat := ((switches.map fun s => s.flags.length).foldl max 0) + 2

/-- The columns of the explanations: eighty less the margin, the names, and the blank that ends a line. -/
def explanationWidth : Nat := 80 - 2 - nameWidth - 1

/-- The lines for a switch. -/
def linesFor (s : Switch) : List Text :=
  match Text.fill explanationWidth s.description with
  | [] => []
  | first :: rest =>
    ("  " ++ Text.padEnd nameWidth s.flags ++ first) ::
      rest.map fun line => "  " ++ Text.padEnd nameWidth "" ++ line

/-- What stands above the switches. -/
def head : List Text :=
  ["Usage: " ++ Release.name ++ " [options] [paths...]", "",
    "Detects accesses to uninitialized storage pointers", "", "Options:"]

/-- The explanation of the command line. -/
def text : Text := Text.intercalate "\n" ((head ++ switches.flatMap linesFor).concat "")

end StorageFlow.CommandLine.Help
