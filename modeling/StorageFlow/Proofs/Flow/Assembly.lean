/-
# StorageFlow.Proofs.Flow.Assembly — which lists of nodes are flows.

Whoever assembles a flow from plain numbers has all of them checked, and the first that is wrong is reported.
`arenaFaults` lists everything that is wrong with the numbers, whether or not a check gets there: the entry, the
exit, and position by position the index of the node and its successors.  Assembling fails with the first fault and
succeeds if there is none (`assemble_decides`); `WellFormed` says what that means without any order.
-/
import Mathlib.Data.List.Forall2
import Mathlib.Data.Fin.Basic
import StorageFlow.Flow
import StorageFlow.Proofs.Action.Effects

namespace StorageFlow

/-- Different natural numbers are different numbers. -/
theorem Number.ofNat_injective : Function.Injective Number.ofNat :=
  fun _ _ h => Int.ofNat_inj.1 (Number.ofInt_inj.1 h)

end StorageFlow

namespace StorageFlow.Flow

variable {functionId : Number} {name : Text} {size position : Nat} {role : IndexRole} {index node : Number}
  {indices : List Number} {draft : NodeDraft} {drafts : List NodeDraft} {entry exit : Number} {failure : Failure}

/-! ## Numbers and positions -/

/-- The number by which a node is known outside of its arena. -/
def numberOf (p : Fin size) : Number := .ofNat p.val

theorem numberOf_injective : Function.Injective (numberOf : Fin size → Number) :=
  Number.ofNat_injective.comp Fin.val_injective

/-- A number is the position of a node in an arena. -/
def IsPosition (size : Nat) (index : Number) : Prop := ∃ i, i < size ∧ index = .ofNat i

theorem isPosition_iff_isSome : IsPosition size index ↔ (position? size index).isSome = true := by
  rw [Option.isSome_iff_exists]
  constructor
  · rintro ⟨i, hi, rfl⟩
    exact ⟨⟨i, hi⟩, position?_eq_some_iff.2 rfl⟩
  · rintro ⟨p, hp⟩
    exact ⟨p.val, p.isLt, position?_eq_some_iff.1 hp⟩

instance (size : Nat) (index : Number) : Decidable (IsPosition size index) :=
  decidable_of_iff _ isPosition_iff_isSome.symm

theorem IsPosition.mono {more : Nat} (h : IsPosition size index) (hmore : size ≤ more) : IsPosition more index := by
  obtain ⟨i, hi, rfl⟩ := h
  exact ⟨i, Nat.lt_of_lt_of_le hi hmore, rfl⟩

theorem IsPosition.ne_ofNat (h : IsPosition size index) : index ≠ .ofNat size := by
  obtain ⟨i, hi, rfl⟩ := h
  exact fun heq => Nat.ne_of_lt hi (Number.ofNat_injective heq)

/-! ## All that is wrong with a list of nodes -/

/-- The fault of a number that is no position. -/
def indexFaults (name : Text) (size : Nat) (role : IndexRole) (index : Number) : List Failure :=
  if IsPosition size index then [] else [.defect (.indexOutOfBounds name role index size)]

/-- The faults of a node: it stands elsewhere than it says, or a successor does not exist. -/
def nodeFaults (name : Text) (size position : Nat) (draft : NodeDraft) : List Failure :=
  (if draft.index = .ofNat position then [] else [.defect (.misplacedNode name draft.index position)]) ++
    draft.exits.flatMap (indexFaults name size (.successorOf draft.index))

/-- The faults of the nodes from a position on. -/
def nodesFaults (name : Text) (size position : Nat) (drafts : List NodeDraft) : List Failure :=
  (drafts.zipIdx position).flatMap fun (draft, i) => nodeFaults name size i draft

/-- All that is wrong with a list of nodes and the numbers of the entry and of the exit. -/
def arenaFaults (name : Text) (drafts : List NodeDraft) (entry exit : Number) : List Failure :=
  indexFaults name drafts.length .entry entry ++
    (indexFaults name drafts.length .exit exit ++ nodesFaults name drafts.length 0 drafts)

/-- Every number in a list of nodes is right, and so are those of the entry and of the exit. -/
structure WellFormed (drafts : List NodeDraft) (entry exit : Number) : Prop where
  entry : IsPosition drafts.length entry
  exit : IsPosition drafts.length exit
  -- Every node stands where its index says.
  index_eq (i : Nat) (draft : NodeDraft) : drafts[i]? = some draft → draft.index = .ofNat i
  -- Every successor of a node is one of the nodes.
  exits : ∀ draft ∈ drafts, ∀ index ∈ draft.exits, IsPosition drafts.length index

theorem indexFaults_eq_nil_iff : indexFaults name size role index = [] ↔ IsPosition size index := by
  unfold indexFaults
  split <;> simp_all

theorem nodeFaults_eq_nil_iff :
    nodeFaults name size position draft = [] ↔
      draft.index = .ofNat position ∧ ∀ index ∈ draft.exits, IsPosition size index := by
  rw [nodeFaults, List.append_eq_nil_iff, List.flatMap_eq_nil_iff]
  simp only [indexFaults_eq_nil_iff]
  refine and_congr_left fun _ => ?_
  split <;> simp_all

theorem nodesFaults_eq_nil_iff :
    nodesFaults name size 0 drafts = [] ↔ ∀ (i : Nat) (draft : NodeDraft), drafts[i]? = some draft →
      draft.index = .ofNat i ∧ ∀ index ∈ draft.exits, IsPosition size index := by
  rw [nodesFaults, List.flatMap_eq_nil_iff]
  simp only [Prod.forall, List.mem_zipIdx_iff_getElem?, nodeFaults_eq_nil_iff]
  exact forall_comm

/-- Nothing is wrong exactly with well-formed lists of nodes. -/
theorem arenaFaults_eq_nil_iff : arenaFaults name drafts entry exit = [] ↔ WellFormed drafts entry exit := by
  rw [arenaFaults, List.append_eq_nil_iff, List.append_eq_nil_iff, indexFaults_eq_nil_iff, indexFaults_eq_nil_iff,
    nodesFaults_eq_nil_iff]
  constructor
  · rintro ⟨hentry, hexit, hnodes⟩
    refine ⟨hentry, hexit, fun i draft hdraft => (hnodes i draft hdraft).1, fun draft hdraft => ?_⟩
    obtain ⟨i, hi⟩ := List.getElem?_of_mem hdraft
    exact (hnodes i draft hi).2
  · intro h
    refine ⟨h.entry, h.exit, fun i draft hdraft => ⟨h.index_eq i draft hdraft, ?_⟩⟩
    exact h.exits draft (List.mem_of_getElem? hdraft)

theorem exists_defect_of_mem_indexFaults (h : failure ∈ indexFaults name size role index) :
    ∃ defect, failure = .defect defect := by
  unfold indexFaults at h
  split at h
  · exact absurd h List.not_mem_nil
  · exact ⟨_, List.mem_singleton.1 h⟩

/-- Wrong numbers are defects of the caller. -/
theorem exists_defect_of_mem_arenaFaults (h : failure ∈ arenaFaults name drafts entry exit) :
    ∃ defect, failure = .defect defect := by
  rw [arenaFaults, List.mem_append, List.mem_append, nodesFaults, List.mem_flatMap] at h
  rcases h with h | h | ⟨⟨draft, i⟩, -, h⟩
  · exact exists_defect_of_mem_indexFaults h
  · exact exists_defect_of_mem_indexFaults h
  · rcases List.mem_append.1 h with h | h
    · split at h
      · exact absurd h List.not_mem_nil
      · exact ⟨_, List.mem_singleton.1 h⟩
    · obtain ⟨index, -, h⟩ := List.mem_flatMap.1 h
      exact exists_defect_of_mem_indexFaults h

/-! ## Checking -/

/-- A node of a flow is what a draft says. -/
structure NodeDraft.Becomes (draft : NodeDraft) (node : FlowNode size) : Prop where
  occurrences_eq : node.occurrences = draft.occurrences
  exits_eq : node.exits.map numberOf = draft.exits

/-- A flow is what a list of nodes describes. -/
structure IsAssembledFrom (flow : Flow) (functionId : Number) (name : Text) (drafts : List NodeDraft)
    (entry exit : Number) : Prop where
  functionId_eq : flow.functionId = functionId
  name_eq : flow.name = name
  size_eq : flow.size = drafts.length
  nodes : List.Forall₂ NodeDraft.Becomes drafts flow.nodes
  entry_eq : numberOf flow.entry = entry
  exit_eq : numberOf flow.exit = exit

/-- The nodes of a list stand in the flow where they stood in the list. -/
theorem IsAssembledFrom.exists_node {flow : Flow} (h : flow.IsAssembledFrom functionId name drafts entry exit)
    {i : Nat} (hdraft : drafts[i]? = some draft) :
    ∃ p : Fin flow.size, p.val = i ∧ NodeDraft.Becomes draft (flow.node p) := by
  obtain ⟨hi, rfl⟩ := List.getElem?_eq_some_iff.1 hdraft
  have hp : i < flow.nodes.length := h.nodes.length_eq ▸ hi
  exact ⟨⟨i, flow.length_nodes ▸ hp⟩, rfl, h.nodes.get hi hp⟩

theorem checkIndex_decides :
    Decides (fun p => numberOf p = index) (checkIndex name size role index) (indexFaults name size role index) := by
  rw [checkIndex, indexFaults]
  cases hposition : position? size index with
  | some p =>
      rw [if_pos (isPosition_iff_isSome.2 (by rw [hposition]; rfl))]
      exact .ok (position?_eq_some_iff.1 hposition).symm
  | none =>
      rw [if_neg (mt isPosition_iff_isSome.1 (by rw [hposition]; simp))]
      exact .error

theorem checkExits_decides :
    Decides (fun ps => ps.map numberOf = indices) (checkExits name size node indices)
      (indices.flatMap (indexFaults name size (.successorOf node))) := by
  induction indices with
  | nil => exact .ok rfl
  | cons index indices ih =>
      rw [checkExits, List.flatMap_cons]
      refine checkIndex_decides.bind fun p hp => ih.bind_of_exists fun ps hps => ⟨p :: ps, rfl, ?_⟩
      rw [List.map_cons, hp, hps]

theorem checkNode_decides :
    Decides (NodeDraft.Becomes draft) (checkNode name size position draft) (nodeFaults name size position draft) := by
  rw [checkNode, nodeFaults]
  split
  · exact checkExits_decides.map fun ps hps => ⟨rfl, hps⟩
  · exact .error

theorem checkNodes_decides :
    Decides (List.Forall₂ NodeDraft.Becomes drafts) (checkNodes name size position drafts)
      (nodesFaults name size position drafts) := by
  induction drafts generalizing position with
  | nil => exact .ok .nil
  | cons draft drafts ih =>
      rw [checkNodes, nodesFaults, List.zipIdx_cons, List.flatMap_cons]
      exact checkNode_decides.bind fun node hnode =>
        ih.bind_of_exists fun nodes hnodes => ⟨node :: nodes, rfl, .cons hnode hnodes⟩

/-- **Assembling a flow fails with the first fault of its numbers**, and succeeds if there is none. -/
theorem assemble_decides :
    Decides (fun flow => flow.IsAssembledFrom functionId name drafts entry exit)
      (assemble functionId name drafts entry exit) (arenaFaults name drafts entry exit) := by
  refine checkIndex_decides.bind fun p hp => checkIndex_decides.bind fun q hq => ?_
  have hnodes : Decides (List.Forall₂ NodeDraft.Becomes drafts) (checkNodes name drafts.length 0 drafts)
    (nodesFaults name drafts.length 0 drafts) := checkNodes_decides
  -- The last check is no `bind`: the size of the arena is proved from its outcome.
  generalize nodesFaults name drafts.length 0 drafts = faults at hnodes ⊢
  split
  · next hfails =>
    rw [hfails] at hnodes
    cases hnodes
    exact .error
  · next nodes hfound =>
    rw [hfound] at hnodes
    cases hnodes with
    | ok hbecome => exact .ok ⟨rfl, rfl, rfl, hbecome, hp, hq⟩

end StorageFlow.Flow
