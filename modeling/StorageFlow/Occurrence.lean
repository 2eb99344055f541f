/-
# StorageFlow.Occurrence — variables, and the program points that touch them.

Variables and occurrences have an identity of their own: two declarations with the same identifier are two
variables, and two reads of one variable are two occurrences.  The identity of a variable is its place among
the declarations of a function; the identity of an occurrence is the place where it was made.

Occurrences are ordered for reporting by where they happen; those without a site come last, and what then
still ties is decided by the identifier of the variable, the kind, and the identifier of the site.
-/
import StorageFlow.Location

namespace StorageFlow

/-- Where a variable of a reference type lives. -/
inductive DataLocation where
  | storage
  | memory
  | calldata
  | unspecified
  deriving DecidableEq, Repr, Inhabited

namespace DataLocation

/-- The name of a data location in program documents. -/
def name : DataLocation → Text
  | storage => "storage"
  | memory => "memory"
  | calldata => "calldata"
  | unspecified => "default"

/-- All data locations. -/
def all : List DataLocation := [storage, memory, calldata, unspecified]

end DataLocation

/-- A variable declared in a function. -/
structure Variable where
  owner : Number
  -- The place of the declaration among those of its function.
  slot : Nat
  -- The identifier of the declaration; it need not be unique.
  id : Number
  name : Text
  storage : DataLocation
  location : Location
  deriving DecidableEq, Repr, Inhabited

/-- Tells whether a variable refers to the persistent storage. -/
def Variable.isStorageLocated (v : Variable) : Bool := v.storage == .storage

/-- The expression or statement that an occurrence belongs to. -/
structure Site where
  id : Number
  location : Location
  deriving DecidableEq, Repr, Inhabited

/-- The ways a variable can be touched. -/
inductive Touch where
  | declaration
  | assignment
  | inlineReference
  | access
  deriving DecidableEq, Repr, Inhabited

namespace Touch

/-- The code of a kind of touch; it is the ordering key of the kind. -/
def code : Touch → Int
  | declaration => 0
  | assignment => 1
  | inlineReference => 2
  | access => 3

/-- The kind of touch with a code.  No other code can occur in a program. -/
def ofCode? (code : Int) : Option Touch :=
  if code = 0 then some declaration
  else if code = 1 then some assignment
  else if code = 2 then some inlineReference
  else if code = 3 then some access
  else none

theorem ofCode?_code (t : Touch) : ofCode? t.code = some t := by cases t <;> rfl

/-- The number that stands for a kind of touch. -/
def number (t : Touch) : Number := Number.ofInt t.code

/-- The kind of touch that a number stands for. -/
def ofNumber? (x : Number) : Option Touch := x.toInt?.bind ofCode?

theorem ofNumber?_number (t : Touch) : ofNumber? t.number = some t := by
  rw [ofNumber?, number, Number.toInt?_ofInt]
  exact ofCode?_code t

end Touch

/-- A place in a flow: a node and a position in its list of occurrences. -/
structure Place where
  node : Nat
  position : Nat
  deriving DecidableEq, Repr, Inhabited

/-- One occurrence of a variable. -/
structure Occurrence where
  place : Place
  kind : Number
  subject : Variable
  -- The expression the occurrence happens in; a declaration has none.
  site : Option Site
  deriving DecidableEq, Repr, Inhabited

namespace Occurrence

/-- The way the variable is touched, if the code of the kind is one that can occur. -/
def touch? (o : Occurrence) : Option Touch := Touch.ofNumber? o.kind

/-- The location to point at when the occurrence is reported. -/
def location (o : Occurrence) : Location :=
  match o.site with
  | some site => site.location
  | none => o.subject.location

/-- Orders sites by their location; what has no site comes last. -/
def compareSites : Option Site → Option Site → Ordering
  | some a, some b => a.location.compare b.location
  | some _, none => .lt
  | none, some _ => .gt
  | none, none => .eq

/-- The identifier of the site, zero if there is none. -/
def siteId (o : Occurrence) : Number := (o.site.map Site.id).getD (Number.ofNat 0)

/-- Orders occurrences for reporting, independently of the order in which they were collected. -/
def compare (a b : Occurrence) : Ordering :=
  (compareSites a.site b.site).then <|
    (Ord.compare a.subject.id b.subject.id).then <|
      (Ord.compare a.kind b.kind).then (Ord.compare a.siteId b.siteId)

end Occurrence

end StorageFlow
