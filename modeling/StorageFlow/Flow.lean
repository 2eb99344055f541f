/-
# StorageFlow.Flow — the control flow of a function.

The nodes of a flow lie in an arena and refer to each other by position, so cyclic graphs need no cyclic
data.  Positions are `Fin size`: a flow cannot mention a node that it does not have.  Whoever has a
description with plain numbers gets a flow from `Flow.assemble`, which checks every one of them and reports
the first that is wrong: the entry, the exit, then node by node its own index and its successors.

Main statement: `length_checkNodes` — checking keeps every node, so the arena has the size that the
positions were checked against.
-/
import StorageFlow.Failure
import StorageFlow.Occurrence

namespace StorageFlow

/-- A straight-line piece of a function in an arena with the given number of nodes. -/
structure FlowNode (size : Nat) where
  occurrences : List Occurrence
  -- The successors, in the order in which they were recorded; repetitions are allowed.
  exits : List (Fin size)

/-- The control flow of a function. -/
structure Flow where
  functionId : Number
  name : Text
  size : Nat
  nodes : List (FlowNode size)
  length_nodes : nodes.length = size
  entry : Fin size
  exit : Fin size

/-- A node whose indices have not been checked. -/
structure NodeDraft where
  -- The index the node claims to have.
  index : Number
  occurrences : List Occurrence
  exits : List Number

namespace Flow

/-! ## Checking indices -/

/-- The position that a number denotes in an arena. -/
def position? (size : Nat) (index : Number) : Option (Fin size) :=
  index.toInt?.bind fun i => if h : 0 ≤ i ∧ i.toNat < size then some ⟨i.toNat, h.2⟩ else none

theorem position?_eq_some_iff {size : Nat} {index : Number} {p : Fin size} :
    position? size index = some p ↔ index = Number.ofNat p.val := by
  unfold position? Number.ofNat
  rw [Option.bind_eq_some_iff, ← Number.toInt?_eq_some_iff]
  constructor
  · rintro ⟨i, hi, h⟩
    split at h
    · next hb =>
      obtain rfl := Option.some.inj h
      rw [hi]
      exact congrArg some (Int.toNat_of_nonneg hb.1).symm
    · exact absurd h (by simp)
  · intro h
    refine ⟨p.val, h, ?_⟩
    rw [dif_pos ⟨Int.natCast_nonneg _, by rw [Int.toNat_natCast]; exact p.isLt⟩]
    exact congrArg some (Fin.ext (Int.toNat_natCast _))

/-- The position that a number denotes, or the defect that it denotes none. -/
def checkIndex (name : Text) (size : Nat) (role : IndexRole) (index : Number) : Except Failure (Fin size) :=
  match position? size index with
  | some p => .ok p
  | none => .error (.defect (.indexOutOfBounds name role index size))

/-- The positions of the successors of a node. -/
def checkExits (name : Text) (size : Nat) (node : Number) : List Number → Except Failure (List (Fin size))
  | [] => .ok []
  | index :: indices => do
    let p ← checkIndex name size (.successorOf node) index
    let ps ← checkExits name size node indices
    return p :: ps

/-- The node at a position, if its index says the same position and its successors exist. -/
def checkNode (name : Text) (size position : Nat) (draft : NodeDraft) : Except Failure (FlowNode size) :=
  if draft.index = Number.ofNat position then
    (checkExits name size draft.index draft.exits).map fun exits => ⟨draft.occurrences, exits⟩
  else .error (.defect (.misplacedNode name draft.index position))

/-- The nodes from a position on. -/
def checkNodes (name : Text) (size : Nat) : Nat → List NodeDraft → Except Failure (List (FlowNode size))
  | _, [] => .ok []
  | position, draft :: drafts => do
    let node ← checkNode name size position draft
    let nodes ← checkNodes name size (position + 1) drafts
    return node :: nodes

/-- Checking keeps every node. -/
theorem length_checkNodes {name : Text} {size position : Nat} {drafts : List NodeDraft}
    {nodes : List (FlowNode size)} (h : checkNodes name size position drafts = .ok nodes) :
    nodes.length = drafts.length := by
  induction drafts generalizing position nodes with
  | nil =>
    obtain rfl : [] = nodes := Except.ok.inj h
    rfl
  | cons draft drafts ih =>
    simp only [checkNodes, bind, Except.bind] at h
    split at h
    · exact absurd h (by simp)
    · split at h
      · exact absurd h (by simp)
      · next rest hrest =>
        obtain rfl := Except.ok.inj h
        rw [List.length_cons, List.length_cons, ih hrest]

/-- The flow that a list of nodes describes. -/
def assemble (functionId : Number) (name : Text) (drafts : List NodeDraft) (entry exit : Number) :
    Except Failure Flow :=
  (checkIndex name drafts.length .entry entry).bind fun entry =>
    (checkIndex name drafts.length .exit exit).bind fun exit =>
      -- That checking succeeded is what proves the size of the arena.
      match h : checkNodes name drafts.length 0 drafts with
      | .error failure => .error failure
      | .ok nodes => .ok ⟨functionId, name, drafts.length, nodes, length_checkNodes h, entry, exit⟩

/-! ## Nodes of a flow -/

/-- The node at a position. -/
def node (flow : Flow) (p : Fin flow.size) : FlowNode flow.size :=
  flow.nodes.get ⟨p.val, flow.length_nodes.symm ▸ p.isLt⟩

/-- The successors of a node. -/
def exits (flow : Flow) (p : Fin flow.size) : List (Fin flow.size) := (flow.node p).exits

/-- The occurrences in a node. -/
def occurrences (flow : Flow) (p : Fin flow.size) : List Occurrence := (flow.node p).occurrences

/-- The position that a number denotes in a flow. -/
def get? (flow : Flow) (index : Number) : Option (Fin flow.size) := position? flow.size index

/-- The position that a number denotes in a flow which should have it. -/
def mustGet (flow : Flow) (index : Number) : Except Failure (Fin flow.size) :=
  match flow.get? index with
  | some p => .ok p
  | none => .error (.defect (.unknownNode flow.name index))

/-- All occurrences, node by node. -/
def allOccurrences (flow : Flow) : List Occurrence := flow.nodes.flatMap FlowNode.occurrences

/-- The number of occurrences in all nodes. -/
def countOccurrences (flow : Flow) : Nat := flow.allOccurrences.length

/-- Every occurrence in a node is an occurrence of the flow. -/
theorem mem_allOccurrences {flow : Flow} {p : Fin flow.size} {o : Occurrence}
    (h : o ∈ flow.occurrences p) : o ∈ flow.allOccurrences :=
  List.mem_flatMap.2 ⟨flow.node p, List.get_mem _ _, h⟩

end Flow

end StorageFlow
