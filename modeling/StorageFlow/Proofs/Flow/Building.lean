/-
# StorageFlow.Proofs.Flow.Building — what was checked before can be built.

A builder checks every index that it is given, and so does the flow that is built in the end; a wrong index is
a defect of the caller.  `Builder.Ready` is what a caller has to see to.  A ready builder stays ready whatever
is recorded in its nodes and whatever edges are drawn between them, none of these operations fails, and the
flow that is built in the end passes all checks (`Builder.Ready.exists_becomes`).

Whoever works on one node after the other finds a builder of the form `done ++ node :: rest`; there every operation
has an equation of its own (`modify_here`).
-/
import StorageFlow.Flow.Builder
import StorageFlow.Proofs.Flow.Assembly
import StorageFlow.Proofs.List.Distinct

namespace StorageFlow.Flow

/-! ## Nodes under construction -/

/-- Some numbers are positions in an arena. -/
def ArePositions (size : Nat) (indices : List Number) : Prop :=
  ∀ index ∈ indices, ∃ i, i < size ∧ index = .ofNat i

/-- A node of a flow has the occurrences and the successors of a node under construction. -/
structure OpenNode.Becomes {size : Nat} (opened : OpenNode) (node : FlowNode size) : Prop where
  occurrences_eq : node.occurrences = opened.occurrences
  exits_eq : node.exits.map (fun p => Number.ofNat p.val) = opened.exits

/-- The node under construction that a draft was made from. -/
def OpenNode.ofDraft (draft : NodeDraft) : OpenNode := ⟨draft.occurrences, draft.exits⟩

/-! ## Edges without repetitions -/

/-- The edges of a node after one more edge is recorded. -/
def recordEdge (edges : List Number) (target : Number) : List Number :=
  if target ∈ edges then edges else edges ++ [target]

theorem recordEdge_eraseDups (targets : List Number) (target : Number) :
    recordEdge targets.eraseDups target = (targets ++ [target]).eraseDups := by
  unfold recordEdge
  simp only [List.mem_eraseDups]
  split
  · next h => exact (eraseDups_snoc_of_mem h).symm
  · next h => exact (eraseDups_snoc_of_notMem h).symm

/-- Edges that are recorded one after the other are kept in the order of their first use. -/
theorem foldl_recordEdge (targets : List Number) : targets.foldl recordEdge [] = targets.eraseDups := by
  induction targets using List.reverseRecOn with
  | nil => rfl
  | append_singleton targets target ih =>
      rw [List.foldl_append, ih]
      exact recordEdge_eraseDups targets target

/-! ## Builders that are ready -/

/-- The edges of a node lead to nodes, and its occurrences are of known kinds. -/
structure OpenNode.Ready (node : OpenNode) (size : Nat) : Prop where
  exits : ArePositions size node.exits
  kinds : ∀ o ∈ node.occurrences, ∃ t : Touch, o.kind = t.number

theorem OpenNode.ready_blank (size : Nat) : OpenNode.Ready ⟨[], []⟩ size := by
  constructor
  · intro index hindex
    exact absurd hindex List.not_mem_nil
  · intro o ho
    exact absurd ho List.not_mem_nil

/-- A flow belongs to a function, and its occurrences are of known kinds. -/
structure BuiltFor (flow : Flow) (functionId : Number) : Prop where
  functionId_eq : flow.functionId = functionId
  kinds : ∀ o ∈ flow.allOccurrences, ∃ t : Touch, o.kind = t.number

namespace Builder

/-- A builder of some function has some number of nodes, and all of them are ready. -/
structure Ready (b : Builder) (functionId : Number) (size : Nat) : Prop where
  functionId_eq : b.functionId = functionId
  length_nodes : b.nodes.length = size
  nodes : ∀ node ∈ b.nodes, node.Ready size

variable {b : Builder} {functionId : Number} {size i k : Nat}

/-- Adding nodes one by one adds as many blank nodes. -/
theorem foldl_addNode {α : Type} (items : List α) (b : Builder) :
    items.foldl (fun b _ => b.addNode.1) b =
      { b with nodes := b.nodes ++ List.replicate items.length ⟨[], []⟩ } := by
  induction items generalizing b with
  | nil => simp
  | cons item items ih =>
      rw [List.foldl_cons, ih, List.length_cons, List.replicate_succ]
      simp [addNode]

/-- A builder with blank nodes is ready. -/
theorem ready_foldl_addNode {α : Type} (functionId : Number) (name : Text) (items : List α) :
    (items.foldl (fun b _ => b.addNode.1) (start functionId name)).Ready functionId items.length := by
  rw [foldl_addNode]
  refine ⟨rfl, by simp [start], fun node hnode => ?_⟩
  rw [start, List.nil_append] at hnode
  rw [List.eq_of_mem_replicate hnode]
  exact OpenNode.ready_blank _

/-- A change of a node replaces that node and no other. -/
theorem modify_ofNat (hi : i < b.nodes.length) (change : Nat → OpenNode → OpenNode) :
    b.modify (.ofNat i) change = .ok { b with nodes := b.nodes.modify i (change i) } := by
  have hposition : position? b.nodes.length (.ofNat i) = some ⟨i, hi⟩ := position?_eq_some_iff.2 rfl
  rw [modify, hposition]

/-- A node that has not been added cannot be changed. -/
theorem modify_of_not_isPosition {index : Number} (h : ¬ IsPosition b.nodes.length index)
    (change : Nat → OpenNode → OpenNode) :
    b.modify index change = .error (.defect (.undefinedNode b.name index)) := by
  have hposition : position? b.nodes.length index = none := by
    rw [← Option.not_isSome_iff_eq_none]
    exact mt isPosition_iff_isSome.2 h
  rw [modify, hposition]

section Here

variable {name : Text} {done rest : List OpenNode} {node : OpenNode}

/-- A change of the node behind those that are finished replaces this node only. -/
theorem modify_here (change : Nat → OpenNode → OpenNode) :
    modify ⟨functionId, name, done ++ node :: rest⟩ (.ofNat done.length) change =
      .ok ⟨functionId, name, done ++ change done.length node :: rest⟩ := by
  have hi : done.length < (done ++ node :: rest).length := by simp
  rw [modify_ofNat hi]
  simp [List.modify_eq_take_cons_drop]

theorem record_here (kind : Number) (subject : Variable) (site : Option Site) :
    record ⟨functionId, name, done ++ node :: rest⟩ (.ofNat done.length) kind subject site =
      .ok ⟨functionId, name, done ++ ⟨node.occurrences ++
        [⟨⟨done.length, node.occurrences.length⟩, kind, subject, site⟩], node.exits⟩ :: rest⟩ := by
  rw [record, modify_here]

theorem addEdge_here (target : Number) :
    addEdge ⟨functionId, name, done ++ node :: rest⟩ (.ofNat done.length) target =
      .ok ⟨functionId, name, done ++ ⟨node.occurrences, recordEdge node.exits target⟩ :: rest⟩ := by
  rw [addEdge, modify_here, recordEdge]
  split <;> rfl

end Here

/-- A node of a ready builder can be changed, as long as it stays ready. -/
theorem Ready.exists_modify (h : b.Ready functionId size) (hi : i < size)
    {change : Nat → OpenNode → OpenNode}
    (hchange : ∀ node : OpenNode, node.Ready size → (change i node).Ready size) :
    ∃ b', b.modify (.ofNat i) change = .ok b' ∧ b'.Ready functionId size := by
  have hi' : i < b.nodes.length := h.length_nodes.symm ▸ hi
  refine ⟨_, modify_ofNat hi' change, h.functionId_eq, ?_, ?_⟩
  · rw [← h.length_nodes]
    exact List.length_modify _ _ _
  · intro node hnode
    obtain ⟨j, hj, rfl⟩ := List.getElem_of_mem hnode
    rw [List.getElem_modify]
    have hold (hj' : j < b.nodes.length) : b.nodes[j].Ready size := h.nodes _ (List.getElem_mem hj')
    split
    · exact hchange _ (hold _)
    · exact hold _

theorem Ready.exists_record (h : b.Ready functionId size) (hi : i < size) (t : Touch)
    (subject : Variable) (site : Option Site) :
    ∃ b', b.record (.ofNat i) t.number subject site = .ok b' ∧ b'.Ready functionId size := by
  refine h.exists_modify hi fun node hnode => ⟨hnode.exits, fun o ho => ?_⟩
  rcases List.mem_append.1 ho with ho | ho
  · exact hnode.kinds o ho
  · rw [List.mem_singleton.1 ho]
    exact ⟨t, rfl⟩

theorem Ready.exists_addEdge (h : b.Ready functionId size) (hi : i < size) (hk : k < size) :
    ∃ b', b.addEdge (.ofNat i) (.ofNat k) = .ok b' ∧ b'.Ready functionId size := by
  refine h.exists_modify hi fun node hnode => ?_
  split
  · exact hnode
  · refine ⟨fun index hindex => ?_, hnode.kinds⟩
    rcases List.mem_append.1 hindex with hindex | hindex
    · exact hnode.exits index hindex
    · exact ⟨k, hk, List.mem_singleton.1 hindex⟩

/-- The builder has turned into a flow that starts and ends at some nodes. -/
structure Becomes (b : Builder) (entry exit : Nat) (flow : Flow) : Prop where
  functionId_eq : flow.functionId = b.functionId
  name_eq : flow.name = b.name
  nodes : List.Forall₂ OpenNode.Becomes b.nodes flow.nodes
  entry_eq : flow.entry.val = entry
  exit_eq : flow.exit.val = exit

theorem Becomes.allOccurrences_eq {flow : Flow} (h : b.Becomes i k flow) :
    flow.allOccurrences = b.nodes.flatMap OpenNode.occurrences := by
  have hsame : b.nodes.map OpenNode.occurrences = flow.nodes.map FlowNode.occurrences := by
    rw [← List.forall₂_eq_eq_eq, List.forall₂_map_left_iff, List.forall₂_map_right_iff]
    exact h.nodes.imp fun _ _ hbecomes => hbecomes.occurrences_eq.symm
  rw [allOccurrences, List.flatMap_def, ← hsame, ← List.flatMap_def]

theorem map_ofDraft_drafts (b : Builder) : b.drafts.map OpenNode.ofDraft = b.nodes := by
  refine List.ext_getElem ?_ fun j hj hj' => ?_
  · simp [drafts]
  · simp [drafts, OpenNode.ofDraft]

/-- What a builder collected is well-formed if the edges lead to nodes. -/
theorem wellFormed_drafts_iff {entry exit : Number} :
    WellFormed b.drafts entry exit ↔ IsPosition b.nodes.length entry ∧ IsPosition b.nodes.length exit ∧
      ∀ node ∈ b.nodes, ArePositions b.nodes.length node.exits := by
  have hlength : b.drafts.length = b.nodes.length := List.length_mapIdx
  have hexits : (∀ draft ∈ b.drafts, ∀ index ∈ draft.exits, IsPosition b.drafts.length index) ↔
      ∀ node ∈ b.nodes, ArePositions b.nodes.length node.exits := by
    rw [hlength, ← b.map_ofDraft_drafts, List.forall_mem_map]
    rfl
  constructor
  · intro h
    exact ⟨hlength ▸ h.entry, hlength ▸ h.exit, hexits.1 h.exits⟩
  · rintro ⟨hentry, hexit, hnodes⟩
    refine ⟨hlength.symm ▸ hentry, hlength.symm ▸ hexit, fun j draft hdraft => ?_, hexits.2 hnodes⟩
    rw [drafts, List.getElem?_mapIdx] at hdraft
    obtain ⟨node, -, rfl⟩ := Option.map_eq_some_iff.1 hdraft
    rfl

theorem becomes_of_isAssembledFrom {flow : Flow}
    (h : flow.IsAssembledFrom b.functionId b.name b.drafts (.ofNat i) (.ofNat k)) : b.Becomes i k flow where
  functionId_eq := h.functionId_eq
  name_eq := h.name_eq
  nodes := by
    rw [← b.map_ofDraft_drafts, List.forall₂_map_left_iff]
    exact h.nodes.imp fun _ _ hnode => ⟨hnode.occurrences_eq, hnode.exits_eq⟩
  entry_eq := Number.ofNat_injective h.entry_eq
  exit_eq := Number.ofNat_injective h.exit_eq

/-- **A ready builder can be built.** -/
theorem Ready.exists_becomes (h : b.Ready functionId size) (hi : i < size) (hk : k < size) :
    ∃ flow, b.build (.ofNat i) (.ofNat k) = .ok flow ∧ b.Becomes i k flow := by
  obtain rfl := h.length_nodes
  have hwell : WellFormed b.drafts (.ofNat i) (.ofNat k) :=
    wellFormed_drafts_iff.2 ⟨⟨i, hi, rfl⟩, ⟨k, hk, rfl⟩, fun node hnode => (h.nodes node hnode).exits⟩
  have hbuild : Decides (fun flow => flow.IsAssembledFrom b.functionId b.name b.drafts (.ofNat i) (.ofNat k))
      (b.build (.ofNat i) (.ofNat k)) [] := arenaFaults_eq_nil_iff.2 hwell ▸ assemble_decides
  obtain ⟨flow, hflow⟩ := hbuild.isOk_iff.2 rfl
  rw [hflow] at hbuild
  exact ⟨flow, hflow, becomes_of_isAssembledFrom hbuild.of_ok⟩

/-- A flow that was built has occurrences of known kinds only. -/
theorem Ready.builtFor (h : b.Ready functionId size) {flow : Flow} (hflow : b.Becomes i k flow) :
    flow.BuiltFor functionId := by
  refine ⟨hflow.functionId_eq.trans h.functionId_eq, fun o ho => ?_⟩
  rw [hflow.allOccurrences_eq] at ho
  obtain ⟨node, hnode, ho⟩ := List.mem_flatMap.1 ho
  exact (h.nodes node hnode).kinds o ho

end Builder

end StorageFlow.Flow
