/-
# StorageFlow.Diagnostic.Report — diagnostics for the reader.

A place is shown as line and column if the text of its file is known, and as a range of offsets otherwise.
A diagnostic is shown as a line with place, severity and message, followed by the source line it points to,
without the blanks at its end, and by one line for each place that explains it.
-/
import StorageFlow.Diagnostic
import StorageFlow.Text.Blank
import StorageFlow.Text.Position

namespace StorageFlow

/-- Texts of source files, by their paths. -/
abbrev Contents := Table Text Text

namespace Text

/-- Colours for visual emphasis. -/
inductive Colour where
  | red
  | yellow
  | cyan
  deriving DecidableEq, Repr

/-- The terminal code that selects a colour. -/
def Colour.code : Colour → Text
  | red => "\x1b[31m"
  | yellow => "\x1b[33m"
  | cyan => "\x1b[36m"

/-- A text in bold face and in a colour. -/
def emphasize (colour : Colour) (s : Text) : Text := "\x1b[1m" ++ colour.code ++ s ++ "\x1b[0m"

/-- A text that is emphasized if colours are wanted. -/
def emphasizeIf (colorize : Bool) (colour : Colour) (s : Text) : Text :=
  if colorize then emphasize colour s else s

end Text

/-- The colour of a severity. -/
def Severity.colour : Severity → Text.Colour
  | info => .cyan
  | warning => .yellow
  | error => .red

/-- The text of a severity, given by its number. -/
def Severity.textOfNumber (x : Number) (colorize : Bool) : Except Failure Text :=
  match ofNumber? x with
  | some severity => .ok (Text.emphasizeIf colorize severity.colour severity.name)
  | none => .error (.impossible (.number x))

namespace Location

/-- The text of the file of a location, if it is known. -/
def content? (l : Location) (contents : Contents) : Option Text := l.file.bind contents.get?

/-- The file of a location. -/
def fileText (l : Location) : Text := l.file.getD "<unknown>"

/-- A location for the reader: line and column if the text is known, else the range of offsets. -/
def text (l : Location) (contents : Contents) : Text :=
  match l.content? contents with
  | none => l.fileText ++ ":" ++ l.start.text ++ "-" ++ l.stop.text
  | some content =>
    let p := Text.positionOf content l.start
    l.fileText ++ ":" ++ Text.ofNat p.line ++ ":" ++ Text.ofNat p.column

end Location

namespace Text

/-- The line of a text that an offset belongs to. -/
def lineAt? (content : Text) (offset : Number) : Option Text :=
  content.lines[(positionOf content offset).line - 1]?

end Text

namespace Diagnostic

/-- The source line that a diagnostic points to, indented, if the text is known. -/
def excerpt (d : Diagnostic) (contents : Contents) : List Text :=
  match d.location.content? contents with
  | none => []
  | some content => ["    " ++ Text.trimEnd ((Text.lineAt? content d.location.start).getD "")]

/-- The line for a place that explains a diagnostic. -/
def note (contents : Contents) (colorize : Bool) (s : SecondaryLocation) : Text :=
  s.location.text contents ++ ": " ++ Text.emphasizeIf colorize .cyan "Note" ++ ": " ++ s.message

/-- A diagnostic for the reader. -/
def format (d : Diagnostic) (contents : Contents) (colorize : Bool) : Except Failure Text :=
  (Severity.textOfNumber d.severity colorize).map fun severity =>
    Text.intercalate "\n" <|
      (d.location.text contents ++ ": " ++ severity ++ ": " ++ d.message) ::
        d.excerpt contents ++ d.secondaryLocations.map (note contents colorize)

end Diagnostic

end StorageFlow
