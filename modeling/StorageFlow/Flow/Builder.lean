/-
# StorageFlow.Flow.Builder — constructing a flow step by step.

A builder starts without nodes.  Nodes are added one at a time; occurrences and edges are added to a node
that exists.  The target of an edge need not exist yet: targets are checked when the flow is built, and an
edge that was recorded before is ignored.  Building does not end the construction; each flow reflects what
was recorded before it was built.  An operation that fails leaves the builder as it was.

An occurrence is made by the builder, or it is handed over by the caller, who may hand over the same one again.
The builder identifies what it makes by the place where it records it; what a caller has made has a place of its
own, at which no builder makes anything.
-/
import StorageFlow.Flow

namespace StorageFlow.Flow

/-- A node under construction. -/
structure OpenNode where
  occurrences : List Occurrence
  -- The distinct targets recorded so far, in the order of their first use.
  exits : List Number

/-- A flow under construction. -/
structure Builder where
  functionId : Number
  name : Text
  nodes : List OpenNode

namespace Builder

/-- The builder for a function, without nodes. -/
def start (functionId : Number) (name : Text) : Builder := ⟨functionId, name, []⟩

/-- Adds a node; its index is the number of nodes before it. -/
def addNode (b : Builder) : Builder × Nat := ({ b with nodes := b.nodes ++ [⟨[], []⟩] }, b.nodes.length)

/-- Changes a node that was added before. -/
def modify (b : Builder) (index : Number) (change : Nat → OpenNode → OpenNode) : Except Failure Builder :=
  match position? b.nodes.length index with
  | some p => .ok { b with nodes := b.nodes.modify p.val (change p.val) }
  | none => .error (.defect (.undefinedNode b.name index))

/-- Adds an edge; an edge that exists is ignored. -/
def addEdge (b : Builder) (source target : Number) : Except Failure Builder :=
  b.modify source fun _ node =>
    if target ∈ node.exits then node else { node with exits := node.exits ++ [target] }

/-- Records an occurrence that the caller has, at the end of a node.  It stays the one that it is, also when it is
recorded several times. -/
def occurrence (b : Builder) (index : Number) (o : Occurrence) : Except Failure Builder :=
  b.modify index fun _ node => { node with occurrences := node.occurrences ++ [o] }

/-- Makes an occurrence and records it at the end of a node.  The place where it is recorded becomes its identity. -/
def record (b : Builder) (index : Number) (kind : Number) (subject : Variable) (site : Option Site) :
    Except Failure Builder :=
  b.modify index fun position node =>
    { node with occurrences := node.occurrences ++ [⟨⟨position, node.occurrences.length⟩, kind, subject, site⟩] }

/-- Records a declaration; it is located by the variable itself. -/
def declare (b : Builder) (index : Number) (subject : Variable) : Except Failure Builder :=
  b.record index Touch.declaration.number subject none

/-- Records an assignment. -/
def assign (b : Builder) (index : Number) (subject : Variable) (site : Option Site) : Except Failure Builder :=
  b.record index Touch.assignment.number subject site

/-- Records a mention in inline code. -/
def inlineReference (b : Builder) (index : Number) (subject : Variable) (site : Option Site) :
    Except Failure Builder :=
  b.record index Touch.inlineReference.number subject site

/-- Records an access. -/
def access (b : Builder) (index : Number) (subject : Variable) (site : Option Site) : Except Failure Builder :=
  b.record index Touch.access.number subject site

/-- The nodes added so far, each with its position as its index. -/
def drafts (b : Builder) : List NodeDraft :=
  b.nodes.mapIdx fun position node => ⟨Number.ofNat position, node.occurrences, node.exits⟩

/-- The flow with the nodes and edges recorded so far. -/
def build (b : Builder) (entry exit : Number) : Except Failure Flow :=
  assemble b.functionId b.name b.drafts entry exit

end Builder

end StorageFlow.Flow
