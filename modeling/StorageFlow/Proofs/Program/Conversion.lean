/-
# StorageFlow.Proofs.Program.Conversion — what the loader makes of a flow document.

The loader fills a flow under construction node by node, and looks variables up in a table while it does so.
Here the outcome is written down without builder and table: node `i` of the document becomes `nodeAt i`, whose
occurrences stand one for one for those of the document, and whose edges are those of the document without
repetitions (`fillFrom_eq`).  The induction is on the nodes that are still to be filled; what is in front of them
is finished, and what is behind them is blank.

Main statement: `FunctionDocument.Admits.exists_converts` — a flow document that fits its function is converted
to exactly these nodes.
-/
import StorageFlow.Proofs.Program.Acceptance

namespace StorageFlow.Program.PlacedFunction

open StorageFlow.Flow (OpenNode)
open StorageFlow.Flow.Builder (record_here addEdge_here)

variable {f : PlacedFunction}

/-! ## Variables -/

/-- A variable stands for a declaration of the function with this identifier. -/
def Declares (f : PlacedFunction) (id : Nat) (v : Variable) : Prop :=
  ∃ slot d, f.function.locals[slot]? = some d ∧ d.id = id ∧ v = f.variableAt slot d

theorem declares_of_localsFrom {slot : Nat} {known table : Table Nat Variable} {vs : List VariableDocument}
    (hvs : f.function.locals.drop slot = vs)
    (hknown : ∀ id v, known.get? id = some v → f.Declares id v)
    (h : f.localsFrom slot known vs = .ok table) :
    ∀ id v, table.get? id = some v → f.Declares id v := by
  induction vs generalizing slot known with
  | nil =>
      obtain rfl : known = table := Except.ok.inj h
      exact hknown
  | cons d vs ih =>
      have hd : f.function.locals[slot]? = some d := by
        rw [← List.head?_drop, hvs, List.head?_cons]
      have hnext : f.function.locals.drop (slot + 1) = vs := by
        rw [← List.tail_drop, hvs, List.tail_cons]
      rw [localsFrom] at h
      split at h
      · exact absurd h (by simp)
      · refine ih hnext ?_ h
        intro id v hv
        rw [Table.get?_set] at hv
        split at hv
        · next hid => exact ⟨slot, d, hd, hid, (Option.some.inj hv).symm⟩
        · exact hknown id v hv

/-- The table of the variables of a function, if no two of them have one identifier. -/
theorem exists_locals (h : (f.function.locals.map VariableDocument.id).Nodup) :
    ∃ known, f.locals = .ok known ∧ Covers known f.variableIds ∧
      ∀ id v, known.get? id = some v → f.Declares id v := by
  have hfaults : distinctFaults VariableDocument.id f.variableTwice (fun _ => []) [] f.function.locals = [] :=
    distinctFaults_eq_nil_iff.2 ⟨by simp, h, by simp⟩
  have hdecides : Decides (Covers · f.variableIds) f.locals [] :=
    hfaults ▸ localsFrom_decides covers_empty
  obtain ⟨known, hknown⟩ := hdecides.isOk_iff.2 rfl
  refine ⟨known, hknown, ?_, ?_⟩
  · rw [hknown] at hdecides
    exact hdecides.of_ok
  · refine declares_of_localsFrom rfl ?_ hknown
    intro id v hv
    simp at hv

/-! ## Nodes -/

/-- The site that is recorded for an occurrence; a declaration has none, even if the document gives one. -/
def siteOf (f : PlacedFunction) (o : OccurrenceDocument) : Option Site :=
  match o.touch with
  | .declaration => none
  | .assignment | .inlineReference | .access => o.site.map fun s => s.inFile f.file

/-- The occurrence that is recorded at a place. -/
def occurrenceAt (f : PlacedFunction) (known : Table Nat Variable) (node position : Nat)
    (o : OccurrenceDocument) : Occurrence :=
  ⟨⟨node, position⟩, o.touch.number, (known.get? o.target).getD default, f.siteOf o⟩

/-- The node that is recorded at a position. -/
def nodeAt (f : PlacedFunction) (known : Table Nat Variable) (i : Nat) (n : NodeDocument) : OpenNode :=
  ⟨n.occurrences.mapIdx (f.occurrenceAt known i), n.exits.eraseDups.map Number.ofNat⟩

section Filling

variable {known : Table Nat Variable} {functionId : Number} {name : Text} {done rest : List OpenNode}
  {node : OpenNode} {size : Nat}

theorem recordTouch_here (o : OccurrenceDocument) (v : Variable) :
    f.recordTouch ⟨functionId, name, done ++ node :: rest⟩ done.length o v =
      .ok ⟨functionId, name, done ++ ⟨node.occurrences ++
        [⟨⟨done.length, node.occurrences.length⟩, o.touch.number, v, f.siteOf o⟩], node.exits⟩ :: rest⟩ := by
  unfold recordTouch siteOf
  cases o.touch with
  | declaration => exact record_here _ v none
  | assignment => exact record_here _ v _
  | inlineReference => exact record_here _ v _
  | access => exact record_here _ v _

theorem recordAll_here (hknown : Covers known f.variableIds) {os : List OccurrenceDocument}
    (hdeclared : ∀ o ∈ os, o.target ∈ f.variableIds) :
    f.recordAll known done.length ⟨functionId, name, done ++ node :: rest⟩ os =
      .ok ⟨functionId, name, done ++ ⟨node.occurrences ++ os.mapIdx fun k =>
        f.occurrenceAt known done.length (node.occurrences.length + k), node.exits⟩ :: rest⟩ := by
  induction os generalizing node with
  | nil => simp [recordAll]
  | cons o os ih =>
      have hcontains : known.contains o.target = true := (hknown o.target).2 (hdeclared o List.mem_cons_self)
      obtain ⟨v, hv⟩ := Option.isSome_iff_exists.1 hcontains
      have hlookup : f.lookUp known o.target = .ok v := by rw [lookUp, hv]
      rw [recordAll, hlookup, ok_bind, recordTouch_here, ok_bind,
        ih fun o ho => hdeclared o (List.mem_cons_of_mem _ ho), List.mapIdx_cons]
      simp [occurrenceAt, hv, Nat.add_assoc, Nat.add_comm 1]

theorem addEdges_here {indices : List Nat} (h : ∀ index ∈ indices, index < size) :
    f.addEdges size done.length ⟨functionId, name, done ++ node :: rest⟩ indices =
      .ok ⟨functionId, name, done ++
        ⟨node.occurrences, (indices.map Number.ofNat).foldl Flow.recordEdge node.exits⟩ :: rest⟩ := by
  induction indices generalizing node with
  | nil => rfl
  | cons index indices ih =>
      have htarget : f.target size (.edgeOf done.length) index = .ok (.ofNat index) := by
        rw [target, if_pos (h index List.mem_cons_self)]
      rw [addEdges, htarget, ok_bind, addEdge_here, ok_bind]
      exact ih fun index hindex => h index (List.mem_cons_of_mem _ hindex)

/-- **Filling turns the blank nodes into those of the document.** -/
theorem fillFrom_eq (hknown : Covers known f.variableIds) {ns : List NodeDocument}
    (hdeclared : ∀ n ∈ ns, ∀ o ∈ n.occurrences, o.target ∈ f.variableIds)
    (hexits : ∀ n ∈ ns, ∀ index ∈ n.exits, index < size) :
    f.fillFrom known size done.length ⟨functionId, name, done ++ List.replicate ns.length ⟨[], []⟩⟩ ns =
      .ok ⟨functionId, name, done ++ ns.mapIdx fun k => f.nodeAt known (done.length + k)⟩ := by
  induction ns generalizing done with
  | nil => rfl
  | cons n ns ih =>
      have hedges : (n.exits.map Number.ofNat).foldl Flow.recordEdge [] =
          n.exits.eraseDups.map Number.ofNat := by
        rw [Flow.foldl_recordEdge, eraseDups_map_of_injective Number.ofNat_injective]
      rw [fillFrom, List.length_cons, List.replicate_succ,
        recordAll_here hknown (hdeclared n List.mem_cons_self), ok_bind,
        addEdges_here (hexits n List.mem_cons_self), ok_bind, hedges]
      have hnext := @ih (done ++ [f.nodeAt known done.length n])
        (fun m hm => hdeclared m (List.mem_cons_of_mem _ hm)) fun m hm => hexits m (List.mem_cons_of_mem _ hm)
      simpa [nodeAt, List.mapIdx_cons, Nat.add_assoc, Nat.add_comm 1] using hnext

end Filling

/-! ## The flow -/

/-- A flow is made from a document with a table of the variables of the function. -/
structure ConvertsTo (f : PlacedFunction) (d : FlowDocument) (known : Table Nat Variable) (flow : Flow) :
    Prop where
  covers : Covers known f.variableIds
  declares (id : Nat) (v : Variable) : known.get? id = some v → f.Declares id v
  declared : ∀ n ∈ d.nodes, ∀ o ∈ n.occurrences, o.target ∈ f.variableIds
  becomes : Flow.Builder.Becomes ⟨.ofNat f.function.id, f.function.name, d.nodes.mapIdx (f.nodeAt known)⟩
    d.entry d.exit flow

/-- **A flow document that fits its function is converted to the nodes that it describes.** -/
theorem exists_convertsTo {d : FlowDocument} (h : f.function.Admits d) :
    ∃ known flow, f.convertFlow d = .ok flow ∧ f.ConvertsTo d known flow := by
  obtain ⟨known, hlocals, hcovers, hdeclares⟩ := exists_locals h.nodup_locals
  have hready : (f.openFlow d).Ready (.ofNat f.function.id) d.nodes.length :=
    Flow.Builder.ready_foldl_addNode _ _ _
  have hblank : f.openFlow d =
      ⟨.ofNat f.function.id, f.function.name, [] ++ List.replicate d.nodes.length ⟨[], []⟩⟩ :=
    Flow.Builder.foldl_addNode _ _
  have hfill : f.fillFrom known d.nodes.length 0 (f.openFlow d) d.nodes =
      .ok ⟨.ofNat f.function.id, f.function.name, d.nodes.mapIdx (f.nodeAt known)⟩ := by
    have hfrom : f.fillFrom known d.nodes.length ([] : List OpenNode).length
        ⟨.ofNat f.function.id, f.function.name, [] ++ List.replicate d.nodes.length ⟨[], []⟩⟩ d.nodes =
          .ok ⟨.ofNat f.function.id, f.function.name, [] ++ d.nodes.mapIdx fun k =>
            f.nodeAt known (([] : List OpenNode).length + k)⟩ :=
      fillFrom_eq hcovers h.declared h.exits_lt
    rw [← hblank] at hfrom
    simpa using hfrom
  have hentry : f.target d.nodes.length .entry d.entry = .ok (.ofNat d.entry) := by
    rw [target, if_pos h.entry_lt]
  have hexit : f.target d.nodes.length .exit d.exit = .ok (.ofNat d.exit) := by
    rw [target, if_pos h.exit_lt]
  have hfilled := fillFrom_decides hcovers hready (Nat.le_of_eq (Nat.zero_add d.nodes.length))
  rw [hfill] at hfilled
  obtain ⟨flow, hflow, hbecomes⟩ := hfilled.of_ok.exists_becomes h.entry_lt h.exit_lt
  refine ⟨known, flow, ?_, hcovers, hdeclares, h.declared, hbecomes⟩
  rw [convertFlow, hlocals, ok_bind, hfill, ok_bind, hentry, ok_bind, hexit, ok_bind]
  exact hflow

/-- The flow of a function is made from a document that fits the function. -/
theorem HasFlow.exists_convertsTo {flow : Flow} (h : f.HasFlow flow) :
    ∃ d known, f.function.flow = some d ∧ f.ConvertsTo d known flow := by
  obtain ⟨-, d, hd, hconvert⟩ := h
  have hfaults : f.flowFaults d = [] := (convertFlow_decides f d).isOk_iff.1 ⟨flow, hconvert⟩
  obtain ⟨known, other, hother, hmade⟩ :=
    PlacedFunction.exists_convertsTo (flowFaults_eq_nil_iff.1 hfaults)
  obtain rfl : flow = other := Except.ok.inj (hconvert.symm.trans hother)
  exact ⟨d, known, hd, hmade⟩

section ConvertsTo

variable {d : FlowDocument} {known : Table Nat Variable} {flow : Flow}

/-- What is recorded for a touch is the variable that it names. -/
theorem ConvertsTo.exists_get? (h : f.ConvertsTo d known flow) {n : NodeDocument} (hn : n ∈ d.nodes)
    {o : OccurrenceDocument} (ho : o ∈ n.occurrences) (node position : Nat) :
    known.get? o.target = some (f.occurrenceAt known node position o).subject := by
  obtain ⟨v, hv⟩ := Option.isSome_iff_exists.1 ((h.covers o.target).2 (h.declared n hn o ho))
  rw [occurrenceAt, hv]
  rfl

/-- An occurrence of the flow is recorded for a touch in the document. -/
theorem ConvertsTo.exists_occurrenceAt (h : f.ConvertsTo d known flow) {x : Occurrence}
    (hx : x ∈ flow.allOccurrences) :
    ∃ n ∈ d.nodes, ∃ o ∈ n.occurrences, ∃ node position, x = f.occurrenceAt known node position o := by
  rw [h.becomes.allOccurrences_eq] at hx
  obtain ⟨node, hnode, hx⟩ := List.mem_flatMap.1 hx
  obtain ⟨i, hi, rfl⟩ := List.mem_mapIdx.1 hnode
  obtain ⟨k, hk, rfl⟩ := List.mem_mapIdx.1 hx
  exact ⟨_, List.getElem_mem hi, _, List.getElem_mem hk, i, k, rfl⟩

/-- An occurrence of the flow touches a variable that the function declares; its identifier leads to it. -/
theorem ConvertsTo.exists_declares (h : f.ConvertsTo d known flow) {x : Occurrence}
    (hx : x ∈ flow.allOccurrences) : ∃ id, known.get? id = some x.subject ∧ f.Declares id x.subject := by
  obtain ⟨n, hn, o, ho, i, k, rfl⟩ := h.exists_occurrenceAt hx
  have hget := h.exists_get? hn ho i k
  exact ⟨o.target, hget, h.declares o.target _ hget⟩

/-- Occurrences share a variable if and only if they name the same identifier. -/
theorem ConvertsTo.subject_eq_iff (h : f.ConvertsTo d known flow) {x y : Occurrence}
    (hx : x ∈ flow.allOccurrences) (hy : y ∈ flow.allOccurrences) :
    x.subject = y.subject ↔ x.subject.id = y.subject.id := by
  refine ⟨fun heq => heq ▸ rfl, fun hid => ?_⟩
  obtain ⟨i, hi, slot, v, -, hvi, hv⟩ := h.exists_declares hx
  obtain ⟨k, hk, slot', w, -, hwk, hw⟩ := h.exists_declares hy
  have hxi : x.subject.id = .ofNat i := by rw [hv, ← hvi]; rfl
  have hyk : y.subject.id = .ofNat k := by rw [hw, ← hwk]; rfl
  have hik : i = k := Number.ofNat_injective (hxi.symm.trans (hid.trans hyk))
  rw [hik, hk] at hi
  exact (Option.some.inj hi).symm

/-- The variables of a flow belong to its function. -/
theorem ConvertsTo.owner_eq (h : f.ConvertsTo d known flow) {x : Occurrence}
    (hx : x ∈ flow.allOccurrences) : x.subject.owner = .ofNat f.function.id := by
  obtain ⟨id, -, slot, v, -, -, hv⟩ := h.exists_declares hx
  rw [hv]
  rfl

/-- An occurrence and its variable are located in the file of the function. -/
theorem ConvertsTo.file_eq (h : f.ConvertsTo d known flow) {x : Occurrence} (hx : x ∈ flow.allOccurrences) :
    x.location.file = some f.file ∧ x.subject.location.file = some f.file := by
  have hsubject : x.subject.location.file = some f.file := by
    obtain ⟨id, -, slot, v, -, -, hv⟩ := h.exists_declares hx
    rw [hv]
    rfl
  refine ⟨?_, hsubject⟩
  obtain ⟨n, -, o, -, i, k, rfl⟩ := h.exists_occurrenceAt hx
  cases hsite : f.siteOf o with
  | none =>
      rw [Occurrence.location, occurrenceAt, hsite]
      exact hsubject
  | some site =>
      rw [Occurrence.location, occurrenceAt, hsite]
      unfold siteOf at hsite
      split at hsite
      · exact absurd hsite (by simp)
      all_goals
        obtain ⟨s, -, rfl⟩ := Option.map_eq_some_iff.1 hsite
        rfl

/-- No occurrence is recorded twice. -/
theorem ConvertsTo.nodup_allOccurrences (h : f.ConvertsTo d known flow) : flow.allOccurrences.Nodup := by
  rw [h.becomes.allOccurrences_eq, List.nodup_flatMap]
  constructor
  · intro node hnode
    obtain ⟨i, hi, rfl⟩ := List.mem_mapIdx.1 hnode
    rw [nodeAt, List.nodup_iff_pairwise_ne, List.pairwise_iff_getElem]
    intro k l hk hl hlt heq
    rw [List.getElem_mapIdx, List.getElem_mapIdx] at heq
    have hplace : k = l := congrArg (fun x => x.place.position) heq
    omega
  · rw [List.pairwise_iff_getElem]
    intro i j hi hj hlt x hxi hxj
    rw [List.getElem_mapIdx] at hxi hxj
    obtain ⟨k, hk, rfl⟩ := List.mem_mapIdx.1 hxi
    obtain ⟨l, hl, heq⟩ := List.mem_mapIdx.1 hxj
    have hplace : j = i := congrArg (fun x => x.place.node) heq
    omega

end ConvertsTo

end StorageFlow.Program.PlacedFunction
