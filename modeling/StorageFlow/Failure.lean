/-
# StorageFlow.Failure — everything that can go wrong, and how it is worded.

A failure is kept as its cause until it is shown.  There are six kinds: defects of the program itself,
mistakes of its user, documents that do not match their schema, plain errors raised by an extension, uses
of something as what it is not, and values that an extension threw without making them errors.
`Failure.message` is the one place where causes become texts.
-/
import StorageFlow.Issue
import StorageFlow.Json.Printer
import StorageFlow.Location
import StorageFlow.Release

namespace StorageFlow

/-- What an index of a flow is used for. -/
inductive IndexRole where
  | entry
  | exit
  | successorOf (node : Number)
  deriving DecidableEq, Repr

/-- The name of a role. -/
def IndexRole.text : IndexRole → Text
  | entry => "entry node"
  | exit => "exit node"
  | successorOf node => "successor of node #" ++ node.text

/-- Causes of failures that a program built with this library should never show. -/
inductive Defect where
  | indexOutOfBounds (flow : Text) (role : IndexRole) (index : Number) (count : Nat)
  | misplacedNode (flow : Text) (index : Number) (position : Nat)
  | unknownNode (flow : Text) (index : Number)
  | undefinedNode (flow : Text) (index : Number)
  | duplicateFlow (function : Number) (name : Text)
  | missingFlow (name : Text) (function : Number)
  | impossibleCase
  | described (message : Text)
  deriving DecidableEq, Repr

/-- The wording of a defect. -/
def Defect.message : Defect → Text
  | indexOutOfBounds flow role index count =>
    "Incorrect definition of the CFG of " ++ flow ++ ": " ++ role.text ++ " #" ++ index.text ++
      " is out of bounds (" ++ Text.ofNat count ++ " nodes)"
  | misplacedNode flow index position =>
    "Node #" ++ index.text ++ " of " ++ flow ++ " is stored at position " ++ Text.ofNat position
  | unknownNode flow index =>
    "Incorrect definition in the CFG of " ++ flow ++ ": cannot find node #" ++ index.text
  | undefinedNode flow index =>
    "Node #" ++ index.text ++ " is not defined in the CFG of " ++ flow
  | duplicateFlow function name =>
    "CFG of function #" ++ function.text ++ " (" ++ name ++ ") is already defined"
  | missingFlow name function =>
    "Cannot find the CFG of function " ++ name ++ " (#" ++ function.text ++ ")"
  | impossibleCase => "Reached impossible case"
  | described message => message

/-- Why a file could not be read. -/
inductive ReadFault where
  | missing
  | notDirectory
  | directory
  | nameTooLong
  | nullInPath
  deriving DecidableEq, Repr

/-- The wording of a fault, given the path that was opened.  The system knows the path in UTF-8. -/
def ReadFault.message (path : Text) : ReadFault → Text
  | missing => "ENOENT: no such file or directory, open '" ++ path.wellFormed ++ "'"
  | notDirectory => "ENOTDIR: not a directory, open '" ++ path.wellFormed ++ "'"
  | directory => "EISDIR: illegal operation on a directory, read"
  | nameTooLong => "ENAMETOOLONG: name too long, open '" ++ path.wellFormed ++ "'"
  | nullInPath => "a path must not contain null characters"

/-- Which reference to a node of a program document leads nowhere. -/
inductive EdgeRole where
  | edgeOf (node : Nat)
  | entry
  | exit
  deriving DecidableEq, Repr

/-- The name of a reference. -/
def EdgeRole.text : EdgeRole → Text
  | edgeOf node => "an edge of node #" ++ Text.ofNat node
  | entry => "the entry"
  | exit => "the exit"

/-- Causes of failures that the user of the program can mend. -/
inductive Mistake where
  | programMissing (path : Text)
  | programUnreadable (path : Text) (fault : ReadFault)
  | programMalformed (path : Text)
  | configurationUnreadable (path : Text) (fault : ReadFault)
  | configurationMalformed (path : Text)
  | mismatch (heading : Text) (issues : List Issue) (help : Text)
  | unknownPass (name : Text)
  | passNotFound (name : Text)
  | verboseAndQuiet
  | messagesNotSaved
  | functionTwice (file : Text) (id : Number) (name : Text)
  | flowMissing (file : Text) (name : Text)
  | variableTwice (file : Text) (id : Number) (function : Text)
  | variableUnknown (file : Text) (id : Number) (function : Text)
  | nodeUnknown (file : Text) (role : EdgeRole) (function : Text) (index : Number) (count : Nat)
  | described (message : Text)
  deriving DecidableEq, Repr

namespace Mistake

/-- A heading line, if there is a heading. -/
def headingLine (heading : Text) : Text := if heading.isEmpty then "" else heading ++ "\n"

/-- A help paragraph, if there is help. -/
def helpParagraph (help : Text) : Text := if help.isEmpty then "" else "\n\n" ++ help

/-- The wording of a mistake. -/
def message : Mistake → Text
  | programMissing path => "Unable to find program file at " ++ path
  | programUnreadable path fault => "Could not parse program file (" ++ path ++ "): " ++ fault.message path
  | programMalformed path => "Could not parse program file (" ++ path ++ "): [object Object]"
  | configurationUnreadable path fault =>
    "Could not load or parse config file (" ++ path ++ "): " ++ fault.message path
  | configurationMalformed path => "Could not load or parse config file (" ++ path ++ "): <invalid json>"
  | mismatch heading issues help =>
    headingLine heading ++ Text.intercalate "\n" (issues.map Issue.text) ++ helpParagraph help
  | unknownPass name => "Cannot find built-in pass: " ++ name
  | passNotFound name => "Built-in pass " ++ name ++ " not found"
  | verboseAndQuiet => "Please choose only one option: --verbose or --quiet"
  | messagesNotSaved => "JSON logging not enabled for this logger instance"
  | functionTwice file id name =>
    file ++ ": function #" ++ id.text ++ " (" ++ name ++ ") is defined twice"
  | flowMissing file name => file ++ ": function " ++ name ++ " is implemented but has no CFG"
  | variableTwice file id function =>
    file ++ ": variable #" ++ id.text ++ " is declared twice in " ++ function
  | variableUnknown file id function =>
    file ++ ": unknown variable #" ++ id.text ++ " referenced in the CFG of " ++ function
  | nodeUnknown file role function index count =>
    file ++ ": " ++ role.text ++ " of " ++ function ++ " refers to node #" ++ index.text ++
      " out of " ++ Text.ofNat count
  | described message => message

end Mistake

/-- An error in one line: the name of its kind, and its message unless that is empty. -/
def errorHeading (kind message : Text) : Text := if message.isEmpty then kind else kind ++ ": " ++ message

/-- Something shown along with a defect. -/
inductive Exhibit where
  | document (value : Json)
  | unprintable (reason : Text)

/-- The text of an exhibit. -/
def Exhibit.text : Exhibit → Text
  | document value => value.pretty
  | unprintable reason => "[Unable to stringify object: " ++ errorHeading "Error" reason ++ "]"

/-- Something that went wrong. -/
inductive Failure where
  | internal (cause : Defect) (location : Option Location) (exhibit : Option Exhibit)
  | execution (cause : Mistake) (location : Option Location)
  | invalid (issues : List Issue)
  | raised (message : Text)
  | misuse (message : Text)
  | thrown (value : Json)
  deriving Inhabited

namespace Failure

/-- A defect without further circumstances. -/
def defect (cause : Defect) : Failure := internal cause none none

/-- A mistake without further circumstances. -/
def mistake (cause : Mistake) : Failure := execution cause none

/-- A value that is none of those its type allows. -/
def impossible (value : Json) : Failure := internal .impossibleCase none (some (.document value))

/-- The line between the sections of a defect's message. -/
def separator : Text := .ofChars (List.replicate 60 '=')

/-- What stands for the calls that led to an error. -/
def callStack : Text := "    at <stack>"

/-- Where something went wrong, as the end of a heading. -/
def locationText : Option Location → Text
  | none => ""
  | some ⟨none, start, _⟩ => " at offset " ++ start.text
  | some ⟨some file, start, _⟩ => " at " ++ file ++ ":" ++ start.text

/-- The wording of a failure. -/
def message : Failure → Text
  | internal cause location exhibit =>
    Text.intercalate "\n" <|
      ["Internal " ++ Release.name ++ " Error" ++ locationText location ++ ":", cause.message] ++
      (match exhibit with
        | none => []
        | some shown => [separator, shown.text]) ++
      [separator, Release.name ++ " Backtrace: Error", callStack, separator, "Using " ++ Release.title]
  | execution cause location => "Execution Error" ++ locationText location ++ ":\n" ++ cause.message
  | invalid issues => Text.intercalate "\n" (issues.map Issue.text)
  | raised message => message
  | misuse message => message
  | thrown value => value.compact

/-- Tells whether a failure is an error, and not just a thrown value. -/
def isError : Failure → Bool
  | thrown _ => false
  | _ => true

/-- The name of the kind of an error. -/
def kindName : Failure → Text
  | misuse _ => "TypeError"
  | _ => "Error"

/-- An error in one line. -/
def heading (failure : Failure) : Text := errorHeading failure.kindName failure.message

/-- An error with its message and the calls that led to it. -/
def stackText (failure : Failure) : Text := failure.heading ++ "\n" ++ callStack

/-- Attributes a mismatch between a document and its schema to its origin; other failures stay. -/
def attributeTo (heading : Text) (help : Text) : Failure → Failure
  | invalid issues => mistake (.mismatch heading issues help)
  | other => other

end Failure

end StorageFlow
