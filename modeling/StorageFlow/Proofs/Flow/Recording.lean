/-
# StorageFlow.Proofs.Flow.Recording — a builder has what was recorded, and nothing else.

Calls of a builder come in any order, and some of them fail: on a node that was not added, or because a flow cannot
be built yet.  What a builder holds is determined by the calls that succeeded (`collected`): as many nodes as were
added, in each of them the occurrences that were recorded in it, in the order of the calls, and the distinct targets
of the edges from it, in the order of their first use.  This goes from call to call; what carries it is that the
calls that succeeded were on nodes that existed (`InScope`), so that a new node has no past.

The source of an edge is checked at once, its target when a flow is built.  Main statement: `records_calls`.
-/
import StorageFlow.Proofs.Flow.Calls

namespace StorageFlow.Flow

/-! ## Calls of a builder -/

/-- What a call that succeeded returns. -/
inductive Answer where
  | index (i : Nat)
  -- The builder itself.
  | done
  | flow (flow : Flow)

namespace Builder

/-- What a builder does at a call. -/
def apply (b : Builder) : Call → Except Failure (Builder × Answer)
  | .node => .ok (b.addNode.1, .index b.addNode.2)
  | .edge source target => (b.addEdge source target).map (·, .done)
  | .declare index subject => (b.declare index subject).map (·, .done)
  | .assign index subject site => (b.assign index subject site).map (·, .done)
  | .inlineReference index subject site => (b.inlineReference index subject site).map (·, .done)
  | .access index subject site => (b.access index subject site).map (·, .done)
  | .occurrence index o => (b.occurrence index o).map (·, .done)
  | .build entry exit => (b.build entry exit).map fun flow => (b, .flow flow)

/-- The builder after a call, whether or not it failed. -/
def perform (b : Builder) (c : Call) : Builder :=
  match b.apply c with
  | .ok (b', _) => b'
  | .error _ => b

/-- The builder after some calls. -/
def performAll (b : Builder) (calls : List Call) : Builder := calls.foldl perform b

/-- What the calls return, each of them. -/
def answers (b : Builder) : List Call → List (Except Failure Answer)
  | [] => []
  | c :: cs => (b.apply c).map Prod.snd :: answers (b.perform c) cs

/-- The calls that succeed. -/
def successes (b : Builder) : List Call → List Call
  | [] => []
  | c :: cs =>
    match b.apply c with
    | .ok (b', _) => c :: successes b' cs
    | .error _ => successes b cs

end Builder

/-- The builder that some calls have been recorded in. -/
def collected (functionId : Number) (name : Text) (calls : List Call) : Builder :=
  ⟨functionId, name, (List.range (calls.count .node)).map (nodeOf calls)⟩

/-! ## A call on a node -/

section OnNode

variable {c : Call} {index : Number} {b : Builder}

theorem apply_of_mention {m : Mention} (hm : c.mention? = some m) :
    b.apply c = (b.modify m.index m.add).map (·, .done) := by
  cases c with
  | node | edge _ _ | build _ _ => exact absurd hm (by simp [Call.mention?])
  | declare _ _ | assign _ _ _ | inlineReference _ _ _ | access _ _ _ | occurrence _ _ =>
      obtain rfl := Option.some.inj hm
      rfl

/-- A call on a node changes this node, and the record of it in the same way. -/
theorem exists_change (h : c.index? = some index) :
    ∃ change : Nat → OpenNode → OpenNode,
      (∀ b : Builder, b.apply c = (b.modify index change).map (·, .done)) ∧
      ∀ calls n, nodeOf (calls ++ [c]) n = if index = .ofNat n then change n (nodeOf calls n) else nodeOf calls n := by
  obtain ⟨m, hm, he, rfl⟩ | ⟨target, rfl⟩ := Call.mention_or_edge h
  · exact ⟨m.add, fun _ => apply_of_mention hm, fun _ _ => nodeOf_snoc_of_mention hm he⟩
  · exact ⟨_, fun _ => rfl, fun _ _ => nodeOf_snoc_edge⟩

end OnNode

/-! ## One call after others -/

section Step

variable {functionId : Number} {name : Text} {calls : List Call} {c : Call} {index : Number}

theorem length_nodes_collected : (collected functionId name calls).nodes.length = calls.count .node := by
  simp [collected]

theorem apply_node_collected (h : InScope calls) :
    (collected functionId name calls).apply .node =
      .ok (collected functionId name (calls ++ [.node]), .index (calls.count .node)) := by
  have hsame : nodeOf (calls ++ [.node]) = nodeOf calls := funext fun _ => nodeOf_snoc_of_none rfl rfl
  -- The new node is blank, and so is the record of it: no call could have been on it before.
  rw [Builder.apply, Builder.addNode, length_nodes_collected, collected, collected, hsame, count_node_snoc,
    List.range_succ, List.map_append, List.map_singleton, h.nodeOf_eq]

/-- What is changed in one node is recorded in this node. -/
theorem modify_collected {change : Nat → OpenNode → OpenNode} {i : Nat} (hi : i < calls.count .node)
    (hc : c ≠ .node)
    (hnode : ∀ n, nodeOf (calls ++ [c]) n = if i = n then change n (nodeOf calls n) else nodeOf calls n) :
    (collected functionId name calls).modify (.ofNat i) change = .ok (collected functionId name (calls ++ [c])) := by
  have hnodes : (collected functionId name calls).nodes.modify i (change i) =
      (collected functionId name (calls ++ [c])).nodes := by
    refine List.ext_getElem (by simp [collected, count_node_snoc_of_ne hc]) ?_
    intro n hn hn'
    simp only [collected, List.getElem_modify, List.getElem_map, List.getElem_range, hnode]
    split
    · next e => rw [e]
    · rfl
  rw [Builder.modify_ofNat (length_nodes_collected ▸ hi), hnodes]
  rfl

theorem apply_collected_of_index? (h : c.index? = some index) :
    (collected functionId name calls).apply c =
      if IsPosition (calls.count .node) index then .ok (collected functionId name (calls ++ [c]), .done)
      else .error (.defect (.undefinedNode name index)) := by
  obtain ⟨change, happly, hnode⟩ := exists_change h
  rw [happly]
  split
  · next hposition =>
    obtain ⟨i, hi, rfl⟩ := hposition
    simp only [Number.ofNat_injective.eq_iff] at hnode
    rw [modify_collected hi (Call.ne_node_of_index? h) (hnode calls)]
    rfl
  · next hposition =>
    rw [Builder.modify_of_not_isPosition (length_nodes_collected ▸ hposition)]
    rfl

/-- A flow that is built is not recorded. -/
theorem collected_snoc_build (entry exit : Number) :
    collected functionId name (calls ++ [.build entry exit]) = collected functionId name calls := by
  have hsame : nodeOf (calls ++ [.build entry exit]) = nodeOf calls := funext fun _ => nodeOf_snoc_of_none rfl rfl
  rw [collected, hsame, count_node_snoc_of_ne (by simp), collected]

/-- **A call that succeeds is recorded**, and it was on a node that had been added. -/
theorem eq_collected_of_apply (h : InScope calls) {b : Builder} {answer : Answer}
    (hc : (collected functionId name calls).apply c = .ok (b, answer)) :
    b = collected functionId name (calls ++ [c]) ∧ InScope (calls ++ [c]) := by
  cases hindex : c.index? with
  | some index =>
      rw [apply_collected_of_index? hindex] at hc
      split at hc
      · next hposition =>
        obtain rfl : _ = b := congrArg Prod.fst (Except.ok.inj hc)
        refine ⟨rfl, h.snoc fun other hother => ?_⟩
        obtain rfl : index = other := Option.some.inj (hindex.symm.trans hother)
        exact hposition
      · exact absurd hc (by simp)
  | none =>
      have hscope : InScope (calls ++ [c]) := h.snoc fun other hother => by
        rw [hindex] at hother
        exact absurd hother (by simp)
      obtain rfl | ⟨entry, exit, rfl⟩ := Call.node_or_build hindex
      · rw [apply_node_collected h] at hc
        exact ⟨congrArg Prod.fst (Except.ok.inj hc).symm, hscope⟩
      · obtain ⟨flow, -, hsame⟩ := map_eq_ok_iff.1 hc
        rw [collected_snoc_build]
        exact ⟨congrArg Prod.fst hsame.symm, hscope⟩

end Step

/-! ## All calls -/

section Run

variable {functionId : Number} {name : Text} {b : Builder} {calls : List Call} {c : Call}

theorem perform_build (b : Builder) (entry exit : Number) : b.perform (.build entry exit) = b := by
  rw [Builder.perform, Builder.apply]
  cases b.build entry exit <;> rfl

/-- What a call leaves unchanged, it leaves unchanged for all calls after it. -/
theorem performAll_of_perform_eq {before later : List Call} (h : (b.performAll before).perform c = b.performAll before) :
    b.performAll (before ++ c :: later) = b.performAll (before ++ later) := by
  rw [Builder.performAll] at h
  rw [Builder.performAll, List.foldl_append, List.foldl_cons, h, ← List.foldl_append, Builder.performAll]

theorem perform_of_apply_eq_error {failure : Failure} (h : b.apply c = .error failure) : b.perform c = b := by
  rw [Builder.perform, h]

/-- After any calls a builder has what the successful ones recorded. -/
theorem performAll_collected (h : InScope calls) (more : List Call) :
    (collected functionId name calls).performAll more =
        collected functionId name (calls ++ (collected functionId name calls).successes more) ∧
      InScope (calls ++ (collected functionId name calls).successes more) := by
  -- The calls that have been recorded are generalized: the first of the others may become one of them.
  induction more generalizing calls with
  | nil =>
      rw [Builder.successes, List.append_nil]
      exact ⟨rfl, h⟩
  | cons c more ih =>
      rw [Builder.performAll, List.foldl_cons, ← Builder.performAll, Builder.successes, Builder.perform]
      cases hc : (collected functionId name calls).apply c with
      | error failure => exact ih h
      | ok result =>
          obtain ⟨b, answer⟩ := result
          obtain ⟨rfl, hscope⟩ := eq_collected_of_apply h hc
          have hmore := ih hscope
          rw [List.append_assoc] at hmore
          exact hmore

/-- The calls of a new builder that succeed. -/
def succeeded (functionId : Number) (name : Text) (calls : List Call) : List Call :=
  (Builder.start functionId name).successes calls

theorem performAll_start (functionId : Number) (name : Text) (calls : List Call) :
    (Builder.start functionId name).performAll calls =
        collected functionId name (succeeded functionId name calls) ∧
      InScope (succeeded functionId name calls) :=
  performAll_collected inScope_nil calls

/-- Adding a node never fails. -/
theorem count_node_successes (b : Builder) (calls : List Call) :
    (b.successes calls).count .node = calls.count .node := by
  induction calls generalizing b with
  | nil => rfl
  | cons c calls ih =>
      rw [Builder.successes]
      cases hc : b.apply c with
      | ok result => rw [List.count_cons, List.count_cons, ih]
      | error failure =>
          have hne : c ≠ .node := by
            rintro rfl
            exact absurd hc (by simp [Builder.apply])
          rw [ih, List.count_cons_of_ne hne]

/-- What a call returns depends on the calls before it only. -/
theorem getElem?_answers (b : Builder) (before : List Call) (c : Call) (later : List Call) :
    (b.answers (before ++ c :: later))[before.length]? = some (((b.performAll before).apply c).map Prod.snd) := by
  induction before generalizing b with
  | nil => rfl
  | cons first before ih => exact ih (b.perform first)

end Run

/-! ## Flows that are built -/

section Build

variable {functionId : Number} {name : Text} {calls : List Call} {entry exit : Number}

theorem drafts_collected (functionId : Number) (name : Text) (calls : List Call) :
    (collected functionId name calls).drafts = (List.range (calls.count .node)).map (draftOf calls) := by
  refine List.ext_getElem (by simp [Builder.drafts, collected]) fun n hn hn' => ?_
  simp [Builder.drafts, collected, nodeOf, draftOf]

/-- The edges of the nodes lead to nodes if all recorded targets are nodes. -/
theorem exits_collected_iff (functionId : Number) (name : Text) (h : InScope calls) :
    (∀ node ∈ (collected functionId name calls).nodes, ArePositions (calls.count .node) node.exits) ↔
      ∀ source target, .edge source target ∈ calls → IsPosition (calls.count .node) target := by
  constructor
  · intro hnodes source target hedge
    obtain ⟨n, hn, rfl⟩ := h _ hedge source rfl
    refine hnodes (nodeOf calls n) (List.mem_map_of_mem (List.mem_range.2 hn)) target ?_
    exact List.mem_eraseDups.2 (mem_targetsOf.2 hedge)
  · intro hedges node hnode target htarget
    obtain ⟨n, -, rfl⟩ := List.mem_map.1 hnode
    exact hedges (.ofNat n) target (mem_targetsOf.1 (List.mem_eraseDups.1 htarget))

/-- What was recorded makes a flow if entry, exit and all targets are nodes. -/
theorem exists_assemble_iff (functionId : Number) (name : Text) (h : InScope calls) :
    (∃ flow, assemble functionId name ((List.range (calls.count .node)).map (draftOf calls)) entry exit = .ok flow) ↔
      IsPosition (calls.count .node) entry ∧ IsPosition (calls.count .node) exit ∧
        ∀ source target, .edge source target ∈ calls → IsPosition (calls.count .node) target := by
  rw [← exits_collected_iff functionId name h, ← drafts_collected functionId name calls,
    assemble_decides.isOk_iff, arenaFaults_eq_nil_iff, Builder.wellFormed_drafts_iff, length_nodes_collected]

/-- Building assembles what was recorded. -/
theorem apply_build_collected (functionId : Number) (name : Text) (calls : List Call) (entry exit : Number) :
    ((collected functionId name calls).apply (.build entry exit)).map Prod.snd =
      (assemble functionId name ((List.range (calls.count .node)).map (draftOf calls)) entry exit).map .flow := by
  rw [← drafts_collected functionId name calls]
  show (((assemble functionId name _ entry exit).map _).map Prod.snd : Except Failure Answer) = _
  cases assemble functionId name (collected functionId name calls).drafts entry exit <;> rfl

/-- A flow that is built has the nodes as they were recorded. -/
theorem node_of_isAssembledFrom {flow : Flow}
    (h : flow.IsAssembledFrom functionId name ((List.range (calls.count .node)).map (draftOf calls)) entry exit)
    (p : Fin flow.size) :
    flow.occurrences p = occurrencesOf calls p.val ∧
      (flow.exits p).map numberOf = (targetsOf calls p.val).eraseDups := by
  have hp : p.val < calls.count .node := by simpa [h.size_eq] using p.isLt
  have hdraft : ((List.range (calls.count .node)).map (draftOf calls))[p.val]? = some (draftOf calls p.val) := by
    rw [List.getElem?_map, List.getElem?_range hp, Option.map_some]
  obtain ⟨q, hq, hnode⟩ := h.exists_node hdraft
  obtain rfl : q = p := Fin.ext hq
  exact ⟨hnode.occurrences_eq, hnode.exits_eq⟩

end Build

/-! ## What a call returns -/

/-- What a call returns after some others, whether or not those have failed. -/
def answerTo (functionId : Number) (name : Text) (before : List Call) (c : Call) : Except Failure Answer :=
  (((Builder.start functionId name).performAll before).apply c).map Prod.snd

/-- Some calls of a builder, and what the next one returns. -/
structure Records (functionId : Number) (name : Text) (before : List Call) : Prop where
  -- Nothing that comes later makes a difference.
  answer_eq (c : Call) (later : List Call) :
    ((Builder.start functionId name).answers (before ++ c :: later))[before.length]? =
      some (answerTo functionId name before c)
  node : answerTo functionId name before .node = .ok (.index (before.count .node))
  -- A call on a node fails if and only if the node has not been added.
  onNode (c : Call) (index : Number) : c.index? = some index →
    answerTo functionId name before c =
      if IsPosition (before.count .node) index then .ok .done else .error (.defect (.undefinedNode name index))
  -- A call that fails might as well have been left out.
  failing (c : Call) (failure : Failure) : answerTo functionId name before c = .error failure →
    ∀ later, (Builder.start functionId name).performAll (before ++ c :: later) =
      (Builder.start functionId name).performAll (before ++ later)
  -- A flow that is built is not recorded.
  building (entry exit : Number) (later : List Call) :
    (Builder.start functionId name).performAll (before ++ .build entry exit :: later) =
      (Builder.start functionId name).performAll (before ++ later)
  -- A flow is assembled from what was recorded.
  build_eq (entry exit : Number) :
    answerTo functionId name before (.build entry exit) =
      (assemble functionId name
        ((List.range (before.count .node)).map (draftOf (succeeded functionId name before))) entry exit).map .flow
  builds_iff (entry exit : Number) :
    (∃ answer, answerTo functionId name before (.build entry exit) = .ok answer) ↔
      IsPosition (before.count .node) entry ∧ IsPosition (before.count .node) exit ∧
        ∀ source target, .edge source target ∈ succeeded functionId name before →
          IsPosition (before.count .node) target
  built (entry exit : Number) (answer : Answer) : answerTo functionId name before (.build entry exit) = .ok answer →
    ∃ flow, answer = .flow flow ∧ flow.functionId = functionId ∧ flow.name = name ∧
      flow.size = before.count .node ∧ numberOf flow.entry = entry ∧ numberOf flow.exit = exit ∧
      ∀ p : Fin flow.size, flow.occurrences p = occurrencesOf (succeeded functionId name before) p.val ∧
        (flow.exits p).map numberOf = (targetsOf (succeeded functionId name before) p.val).eraseDups
  -- What a call makes is new: it is in one node, and there once, unless it is given to another call.
  made_once (o : Occurrence) : (∀ index, .occurrence index o ∉ succeeded functionId name before) →
    ∀ n m k l : Nat, (occurrencesOf (succeeded functionId name before) n)[k]? = some o →
      (occurrencesOf (succeeded functionId name before) m)[l]? = some o → n = m ∧ k = l

/-- **A builder records exactly the calls that succeed.** -/
theorem records_calls (functionId : Number) (name : Text) (before : List Call) : Records functionId name before := by
  obtain ⟨hcollected, hscope⟩ := performAll_start functionId name before
  have hcount : (succeeded functionId name before).count .node = before.count .node := count_node_successes _ before
  have hbuild (entry exit : Number) : answerTo functionId name before (.build entry exit) =
      (assemble functionId name ((List.range (before.count .node)).map (draftOf (succeeded functionId name before)))
        entry exit).map .flow := by
    rw [answerTo, hcollected, apply_build_collected, hcount]
  constructor
  · exact getElem?_answers _ before
  · rw [answerTo, hcollected, apply_node_collected hscope, hcount]
    rfl
  · intro c index hindex
    rw [answerTo, hcollected, apply_collected_of_index? hindex, hcount]
    split <;> rfl
  · intro c failure hfails later
    exact performAll_of_perform_eq (perform_of_apply_eq_error (map_eq_error_iff.1 hfails))
  · exact fun entry exit _ => performAll_of_perform_eq (perform_build _ entry exit)
  · exact hbuild
  · intro entry exit
    rw [← hcount, ← exists_assemble_iff functionId name hscope, hcount, hbuild]
    simp only [map_eq_ok_iff]
    constructor
    · rintro ⟨_, flow, hflow, -⟩
      exact ⟨flow, hflow⟩
    · rintro ⟨flow, hflow⟩
      exact ⟨_, flow, hflow, rfl⟩
  · intro entry exit answer hanswer
    rw [hbuild, ← hcount, map_eq_ok_iff] at hanswer
    obtain ⟨flow, hflow, rfl⟩ := hanswer
    have hmade : flow.IsAssembledFrom functionId name
        ((List.range ((succeeded functionId name before).count .node)).map (draftOf (succeeded functionId name before)))
        entry exit := (hflow ▸ assemble_decides).of_ok
    refine ⟨flow, rfl, hmade.functionId_eq, hmade.name_eq, ?_, hmade.entry_eq, hmade.exit_eq, ?_⟩
    · rw [hmade.size_eq, List.length_map, List.length_range, hcount]
    · exact node_of_isAssembledFrom hmade
  · exact fun o hmade _ _ _ _ => eq_of_recorded hmade

/-- A variable of the function. -/
def cursor : Variable := ⟨.ofNat 1, 0, .ofNat 7, "cursor", .storage, ⟨none, .ofNat 0, .ofNat 9⟩⟩

/-- An access that the caller has made. -/
def noted : Occurrence := ⟨⟨2, 0⟩, Touch.access.number, cursor, none⟩

/-- Calls on two nodes, four of which fail: the first two and the last one for want of a node, and the attempt to
build a flow for want of a target.  One occurrence is given to a call on either node. -/
def hastyCalls : List Call :=
  [.edge (.ofNat 0) (.ofNat 1), .occurrence (.ofNat 0) noted, .node, .declare (.ofNat 0) cursor,
    .edge (.ofNat 0) (.ofNat 1), .occurrence (.ofNat 0) noted, .build (.ofNat 0) (.ofNat 0),
    .edge (.ofNat 0) (.ofNat 0), .edge (.ofNat 0) (.ofNat 1), .node, .occurrence (.ofNat 1) noted,
    .access (.ofNat 1) cursor none, .edge (.ofNat 2) (.ofNat 0)]

/-- In the end there is a flow.  Its nodes have the occurrences that were recorded, the given one as it is in both of
them, and the first node has the edges that were recorded, each of them once. -/
theorem hastyCalls_recorded :
    succeeded (.ofNat 1) "hasty" hastyCalls =
        [.node, .declare (.ofNat 0) cursor, .edge (.ofNat 0) (.ofNat 1), .occurrence (.ofNat 0) noted,
          .edge (.ofNat 0) (.ofNat 0), .edge (.ofNat 0) (.ofNat 1), .node, .occurrence (.ofNat 1) noted,
          .access (.ofNat 1) cursor none] ∧
      ∃ flow, answerTo (.ofNat 1) "hasty" hastyCalls (.build (.ofNat 0) (.ofNat 1)) = .ok (.flow flow) ∧
        flow.size = 2 ∧
        ∀ p : Fin flow.size,
          (p.val = 0 → flow.occurrences p = [⟨⟨0, 0⟩, Touch.declaration.number, cursor, none⟩, noted] ∧
            (flow.exits p).map numberOf = [.ofNat 1, .ofNat 0]) ∧
          (p.val = 1 → flow.occurrences p = [noted, ⟨⟨1, 1⟩, Touch.access.number, cursor, none⟩] ∧
            flow.exits p = []) := by
  have hsucceeded : succeeded (.ofNat 1) "hasty" hastyCalls =
      [.node, .declare (.ofNat 0) cursor, .edge (.ofNat 0) (.ofNat 1), .occurrence (.ofNat 0) noted,
        .edge (.ofNat 0) (.ofNat 0), .edge (.ofNat 0) (.ofNat 1), .node, .occurrence (.ofNat 1) noted,
        .access (.ofNat 1) cursor none] := by
    decide +kernel
  have hrecords := records_calls (.ofNat 1) "hasty" hastyCalls
  have hfirst : IsPosition (hastyCalls.count .node) (.ofNat 0) := ⟨0, by decide, rfl⟩
  have hsecond : IsPosition (hastyCalls.count .node) (.ofNat 1) := ⟨1, by decide, rfl⟩
  have htargets (source target : Number)
      (hedge : .edge source target ∈ succeeded (.ofNat 1) "hasty" hastyCalls) :
      IsPosition (hastyCalls.count .node) target := by
    rw [hsucceeded] at hedge
    obtain ⟨-, rfl⟩ | ⟨-, rfl⟩ | ⟨-, rfl⟩ := by simpa using hedge
    · exact hsecond
    · exact hfirst
    · exact hsecond
  obtain ⟨answer, hanswer⟩ := (hrecords.builds_iff _ _).2 ⟨hfirst, hsecond, htargets⟩
  obtain ⟨flow, rfl, -, -, hsize, -, -, hnodes⟩ := hrecords.built _ _ answer hanswer
  refine ⟨hsucceeded, flow, hanswer, hsize, fun p => ⟨fun hp => ?_, fun hp => ?_⟩⟩
  · rw [(hnodes p).1, (hnodes p).2, hsucceeded, hp]
    decide +kernel
  · rw [(hnodes p).1, ← List.map_eq_nil_iff, (hnodes p).2, hsucceeded, hp]
    decide +kernel

end StorageFlow.Flow
