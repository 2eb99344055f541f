/-
# StorageFlow.Files — the files a run can read.

A snapshot of a file system: a working directory, and what lies at absolute paths.  A directory lies wherever
something lies below it.  There are two ways to find a file.  A path can be *resolved*, which removes blank and
dot components by looking at the text alone; or it can be *walked* component by component, which fails as soon
as a component is not a directory.  The two differ where a path goes through something that does not exist.

Names and texts are kept in UTF-8, which has no place for surrogates without a partner.
-/
import StorageFlow.Failure
import StorageFlow.Text.Split

namespace StorageFlow

/-- The components of an absolute path. -/
abbrev AbsolutePath := List Text

/-- The unit between the components of a path. -/
def slash : UInt16 := Text.unit '/'

namespace AbsolutePath

/-- The text of an absolute path. -/
def text (p : AbsolutePath) : Text := "/" ++ Text.intercalate "/" p

/-- One component further: a blank or a dot stays, two dots go up. -/
def step (p : AbsolutePath) (component : Text) : AbsolutePath :=
  if component = "" ∨ component = "." then p
  else if component = ".." then p.dropLast
  else p ++ [component]

/-- The path that a text denotes, seen from a directory. -/
def resolve (directory : AbsolutePath) (s : Text) : AbsolutePath :=
  (s.splitAt slash).foldl step (if s.startsWith "/" then [] else directory)

/-- The last component of a path, without the given ending unless that is all of it. -/
def baseName (p : AbsolutePath) (ending : Text) : Text :=
  let name := p.getLastD ""
  if name.endsWith ending && name != ending then name.dropEnd ending.length else name

/-- A path as it is kept. -/
def stored (p : AbsolutePath) : AbsolutePath := p.map Text.wellFormed

end AbsolutePath

/-- What can lie at a path. -/
inductive Entry where
  | text (content : Text)
  | directory
  deriving DecidableEq

/-- The files a run can read. -/
structure Files where
  workingDirectory : AbsolutePath
  entries : Table AbsolutePath Entry

namespace Files

/-- The files that some texts denote, seen from a working directory.  Of several with one path the last
counts. -/
def ofList (workingDirectory : AbsolutePath) (entries : List (Text × Entry)) : Files where
  workingDirectory := workingDirectory
  entries := Table.ofList <| entries.map fun (name, entry) =>
    ((AbsolutePath.resolve workingDirectory name).stored, match entry with
      | .text content => .text content.wellFormed
      | .directory => .directory)

/-- Tells whether something lies below a path. -/
def hasBelow (fs : Files) (p : AbsolutePath) : Bool :=
  p.isPrefixOf fs.workingDirectory || fs.entries.keys.any fun q => p.isPrefixOf q

/-- What lies at a path. -/
def get? (fs : Files) (p : AbsolutePath) : Option Entry :=
  match fs.entries.get? p.stored with
  | some entry => some entry
  | none => if fs.hasBelow p.stored then some .directory else none

/-- The text of the file at a path. -/
def readAt (fs : Files) (p : AbsolutePath) : Except ReadFault Text :=
  match fs.get? p with
  | some (.text content) => .ok content
  | some .directory => .error .directory
  | none => .error .missing

/-- The longest name that a directory can hold, in bytes. -/
def longestName : Nat := 255

/-- The longest path that can be walked, in bytes. -/
def longestPath : Nat := 4095

/-- Walks some components further from a path. -/
def walk (fs : Files) : AbsolutePath → List Text → Except ReadFault AbsolutePath
  | p, [] => .ok p
  | p, component :: components =>
    match fs.get? p with
    -- Even a blank or a dot must be looked up in a directory.
    | some .directory =>
      if longestName < component.byteCount then .error .nameTooLong
      else walk fs (p.step component) components
    | some (.text _) => .error .notDirectory
    | none => .error .missing

/-- The text of the file that a walk along a path leads to. -/
def open? (fs : Files) (path : Text) : Except ReadFault Text :=
  if path.units.contains 0 then .error .nullInPath
  else if longestPath < path.byteCount then .error .nameTooLong
  else (fs.walk (if path.startsWith "/" then [] else fs.workingDirectory) (path.splitAt slash)).bind fs.readAt

end Files

end StorageFlow
