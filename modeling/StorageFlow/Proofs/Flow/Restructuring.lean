/-
# StorageFlow.Proofs.Flow.Restructuring — one function, many flows.

A function does not determine its flow.  The nodes can be listed in another order, the exits of a node too, there can
be nodes that nothing leads to, and a straight-line piece can be one node or several.  `Restructures` lists these
choices; applied in either direction and any number of times they give an equivalence of flows.

What happens in equivalent flows is the same (`Alike`): the same occurrences can happen at all, and the same
histories lead through the whole flow.  Three of the four choices place the nodes of one flow among those of another
one (`Embeds`) and are treated as one; a split does not, and its histories are cut at the middle of a node.
-/
import Mathlib.Data.Fin.SuccPred
import StorageFlow.Proofs.Flow.History

namespace StorageFlow

/-- A node with its exits at other positions. -/
def FlowNode.move {size other : Nat} (node : FlowNode size) (place : Fin size → Fin other) : FlowNode other :=
  ⟨node.occurrences, node.exits.map place⟩

namespace Flow

/-! ## Flows of the same function -/

/-- A flow with other nodes. -/
@[reducible] def withNodes (flow : Flow) (size : Nat) (node : Fin size → FlowNode size) (entry exit : Fin size) :
    Flow where
  functionId := flow.functionId
  name := flow.name
  size := size
  nodes := List.ofFn node
  length_nodes := List.length_ofFn
  entry := entry
  exit := exit

/-- The flow with its nodes at other positions. -/
@[reducible] def renumber (flow : Flow) (e : Equiv.Perm (Fin flow.size)) : Flow :=
  flow.withNodes flow.size (fun p => (flow.node (e.symm p)).move e) (e flow.entry) (e flow.exit)

/-- The flow with other exits of one node. -/
@[reducible] def setExits (flow : Flow) (n : Fin flow.size) (exits : List (Fin flow.size)) : Flow :=
  flow.withNodes flow.size (fun p => if p = n then ⟨flow.occurrences n, exits⟩ else flow.node p) flow.entry flow.exit

/-- The node that has a given place. -/
def nodeAt? {size whole : Nat} (place : Fin size → Fin whole) (m : Fin whole) : Option (Fin size) :=
  (List.finRange size).find? fun p => place p = m

/-- The flow with some of its nodes, given by their places in the whole flow.  An exit to a node that is left out is
dropped. -/
@[reducible] def select (flow : Flow) {size : Nat} (place : Fin size → Fin flow.size) (entry exit : Fin size) : Flow :=
  flow.withNodes size
    (fun p => ⟨flow.occurrences (place p), (flow.exits (place p)).filterMap (nodeAt? place)⟩) entry exit

/-- The flow with a node cut in two.  The first piece keeps the position and goes on to the second piece, a new node
with the exits of the whole one; the last piece of the exit is the exit. -/
@[reducible] def split (flow : Flow) (n : Fin flow.size) (length : Nat) : Flow :=
  flow.withNodes (flow.size + 1)
    (Fin.lastCases ⟨(flow.occurrences n).drop length, (flow.exits n).map Fin.castSucc⟩ fun p =>
      if p = n then ⟨(flow.occurrences n).take length, [Fin.last flow.size]⟩ else (flow.node p).move Fin.castSucc)
    flow.entry.castSucc (if flow.exit = n then Fin.last flow.size else flow.exit.castSucc)

/-- A flow is another one with its nodes listed, connected or cut in another way. -/
inductive Restructures : Flow → Flow → Prop
  | renumber (flow : Flow) (e : Equiv.Perm (Fin flow.size)) : Restructures flow (flow.renumber e)
  | permuteExits (flow : Flow) (n : Fin flow.size) (exits : List (Fin flow.size)) :
      exits.Perm (flow.exits n) → Restructures flow (flow.setExits n exits)
  -- Only nodes that cannot be reached are left out, and never the exit.
  | remove (flow : Flow) {size : Nat} (place : Fin size → Fin flow.size) (entry exit : Fin size) :
      Function.Injective place → place entry = flow.entry → place exit = flow.exit →
      (∀ n, flow.Reachable n → ∃ p, place p = n) → Restructures flow (flow.select place entry exit)
  | split (flow : Flow) (n : Fin flow.size) (length : Nat) : Restructures flow (flow.split n length)

section WithNodes

variable {flow : Flow} {size : Nat} {node : Fin size → FlowNode size} {entry exit : Fin size}

theorem node_withNodes (p : Fin size) : (flow.withNodes size node entry exit).node p = node p := by
  simp [Flow.node]

theorem exits_withNodes (p : Fin size) : (flow.withNodes size node entry exit).exits p = (node p).exits := by
  rw [exits, node_withNodes]

theorem occurrences_withNodes (p : Fin size) :
    (flow.withNodes size node entry exit).occurrences p = (node p).occurrences := by
  rw [occurrences, node_withNodes]

end WithNodes

/-! ## Flows in which the same happens -/

variable {flow other small big : Flow} {o : Occurrence} {os : List Occurrence}

/-- An occurrence happens on some path. -/
def Performs (flow : Flow) (o : Occurrence) : Prop := ∃ n, flow.Reachable n ∧ o ∈ flow.occurrences n

/-- The same occurrences happen in two flows, and the same histories lead to and through their exits. -/
structure Alike (flow other : Flow) : Prop where
  performs_iff (o : Occurrence) : flow.Performs o ↔ other.Performs o
  after_exit_iff (os : List Occurrence) : flow.After flow.exit os ↔ other.After other.exit os

theorem Alike.refl (flow : Flow) : flow.Alike flow := ⟨fun _ => .rfl, fun _ => .rfl⟩

theorem Alike.symm (h : flow.Alike other) : other.Alike flow :=
  ⟨fun o => (h.performs_iff o).symm, fun os => (h.after_exit_iff os).symm⟩

theorem Alike.trans {last : Flow} (h : flow.Alike other) (h' : other.Alike last) : flow.Alike last :=
  ⟨fun o => (h.performs_iff o).trans (h'.performs_iff o), fun os => (h.after_exit_iff os).trans (h'.after_exit_iff os)⟩

/-! ## Nodes at other places -/

/-- The nodes of a flow have places in another one, and no path leaves these places. -/
structure Embeds (small big : Flow) (place : Fin small.size → Fin big.size) : Prop where
  injective : Function.Injective place
  entry : place small.entry = big.entry
  exit : place small.exit = big.exit
  occurrences (p : Fin small.size) : big.occurrences (place p) = small.occurrences p
  mem_exits_iff (p q : Fin small.size) : place q ∈ big.exits (place p) ↔ q ∈ small.exits p
  covers (n : Fin big.size) : big.Reachable n → ∃ p, place p = n

section Embeds

variable {place : Fin small.size → Fin big.size} {p : Fin small.size} {n : Fin big.size}

theorem Embeds.before (h : small.Embeds big place) (hos : small.Before p os) : big.Before (place p) os := by
  induction hos with
  | entry => exact h.entry ▸ .entry
  | @edge k m os _ hm ih =>
      rw [← h.occurrences]
      exact ih.edge ((h.mem_exits_iff k m).2 hm)

theorem Embeds.exists_before (h : small.Embeds big place) (hos : big.Before n os) :
    ∃ p, place p = n ∧ small.Before p os := by
  induction hos with
  | entry => exact ⟨small.entry, h.entry, .entry⟩
  | @edge k m os hk hm ih =>
      obtain ⟨p, rfl, hp⟩ := ih
      obtain ⟨q, rfl⟩ := h.covers m (hk.edge hm).reachable
      rw [h.occurrences]
      exact ⟨q, rfl, hp.edge ((h.mem_exits_iff p q).1 hm)⟩

theorem Embeds.before_iff (h : small.Embeds big place) : big.Before (place p) os ↔ small.Before p os := by
  constructor
  · intro hos
    obtain ⟨q, hq, hbefore⟩ := h.exists_before hos
    exact h.injective hq ▸ hbefore
  · exact h.before

theorem Embeds.alike (h : small.Embeds big place) : small.Alike big := by
  constructor
  · intro o
    constructor
    · rintro ⟨p, hp, ho⟩
      obtain ⟨os, hos⟩ := reachable_iff_exists_before.1 hp
      exact ⟨place p, (h.before hos).reachable, (h.occurrences p).symm ▸ ho⟩
    · rintro ⟨n, hn, ho⟩
      obtain ⟨os, hos⟩ := reachable_iff_exists_before.1 hn
      obtain ⟨p, rfl, hp⟩ := h.exists_before hos
      exact ⟨p, hp.reachable, h.occurrences p ▸ ho⟩
  · intro os
    rw [After, After, ← h.exit, h.occurrences]
    simp only [h.before_iff]

end Embeds

theorem embeds_renumber (flow : Flow) (e : Equiv.Perm (Fin flow.size)) : flow.Embeds (flow.renumber e) e where
  injective := e.injective
  entry := rfl
  exit := rfl
  occurrences p := by
    rw [occurrences_withNodes, e.symm_apply_apply]
    rfl
  mem_exits_iff p q := by
    rw [exits_withNodes, e.symm_apply_apply]
    exact List.mem_map_of_injective e.injective
  covers n _ := e.surjective n

theorem embeds_setExits {n : Fin flow.size} {exits : List (Fin flow.size)} (h : exits.Perm (flow.exits n)) :
    (flow.setExits n exits).Embeds flow id where
  injective := Function.injective_id
  entry := rfl
  exit := rfl
  occurrences p := by
    rw [occurrences_withNodes]
    split
    · next e => rw [e]; rfl
    · rfl
  mem_exits_iff p q := by
    rw [exits_withNodes]
    split
    · next e =>
      rw [e]
      exact h.mem_iff.symm
    · rfl
  covers n _ := ⟨n, rfl⟩

theorem nodeAt?_eq_some_iff {size whole : Nat} {place : Fin size → Fin whole} (hplace : Function.Injective place)
    {m : Fin whole} {p : Fin size} : nodeAt? place m = some p ↔ place p = m := by
  have hfound {q : Fin size} (h : nodeAt? place m = some q) : place q = m := by
    simpa using List.find?_some h
  constructor
  · exact hfound
  · intro hp
    cases hq : nodeAt? place m with
    | none => exact absurd hp (by simpa using List.find?_eq_none.1 hq p (List.mem_finRange p))
    | some q => rw [hplace ((hfound hq).trans hp.symm)]

theorem embeds_select {size : Nat} {place : Fin size → Fin flow.size} {entry exit : Fin size}
    (hplace : Function.Injective place) (hentry : place entry = flow.entry) (hexit : place exit = flow.exit)
    (hcovers : ∀ n, flow.Reachable n → ∃ p, place p = n) :
    (flow.select place entry exit).Embeds flow place where
  injective := hplace
  entry := hentry
  exit := hexit
  occurrences p := by rw [occurrences_withNodes]
  mem_exits_iff p q := by
    rw [exits_withNodes, List.mem_filterMap]
    simp [nodeAt?_eq_some_iff hplace]
  covers := hcovers

/-! ## Nodes in two pieces -/

section Split

variable {n k : Fin flow.size} {length : Nat}

theorem occurrences_split_last :
    (flow.split n length).occurrences (Fin.last flow.size) = (flow.occurrences n).drop length := by
  rw [occurrences_withNodes, Fin.lastCases_last]

theorem exits_split_last :
    (flow.split n length).exits (Fin.last flow.size) = (flow.exits n).map Fin.castSucc := by
  rw [exits_withNodes, Fin.lastCases_last]

theorem occurrences_split_self :
    (flow.split n length).occurrences n.castSucc = (flow.occurrences n).take length := by
  rw [occurrences_withNodes, Fin.lastCases_castSucc, if_pos rfl]

theorem exits_split_self : (flow.split n length).exits n.castSucc = [Fin.last flow.size] := by
  rw [exits_withNodes, Fin.lastCases_castSucc, if_pos rfl]

theorem occurrences_split_of_ne (hk : k ≠ n) :
    (flow.split n length).occurrences k.castSucc = flow.occurrences k := by
  rw [occurrences_withNodes, Fin.lastCases_castSucc, if_neg hk]
  rfl

theorem exits_split_of_ne (hk : k ≠ n) :
    (flow.split n length).exits k.castSucc = (flow.exits k).map Fin.castSucc := by
  rw [exits_withNodes, Fin.lastCases_castSucc, if_neg hk]
  rfl

/-- A way to a node of the whole flow goes through both pieces of the node that was cut. -/
theorem Before.split (h : flow.Before k os) (n : Fin flow.size) (length : Nat) :
    (flow.split n length).Before k.castSucc os := by
  induction h with
  | entry => exact .entry
  | @edge k m os _ hm ih =>
      by_cases hk : k = n
      · subst hk
        have hfirst := ih.edge (exits_split_self ▸ List.mem_singleton.2 rfl)
        have hboth := hfirst.edge (exits_split_last ▸ List.mem_map_of_mem hm)
        rwa [occurrences_split_self, occurrences_split_last, List.append_assoc, List.take_append_drop] at hboth
      · rw [← occurrences_split_of_ne hk]
        exact ih.edge (exits_split_of_ne hk ▸ List.mem_map_of_mem hm)

/-- What happens before a node of the flow with the cut node, told by the whole flow: before the second piece it is
what happens before the node and in the first piece. -/
def BeforePiece (flow : Flow) (n : Fin flow.size) (length : Nat) (j : Fin (flow.size + 1)) (os : List Occurrence) :
    Prop :=
  Fin.lastCases (∃ earlier, flow.Before n earlier ∧ os = earlier ++ (flow.occurrences n).take length)
    (fun k => flow.Before k os) j

theorem beforePiece_last :
    flow.BeforePiece n length (Fin.last flow.size) os ↔
      ∃ earlier, flow.Before n earlier ∧ os = earlier ++ (flow.occurrences n).take length := by
  rw [BeforePiece, Fin.lastCases_last]

theorem beforePiece_castSucc : flow.BeforePiece n length k.castSucc os ↔ flow.Before k os := by
  rw [BeforePiece, Fin.lastCases_castSucc]

/-- No way in the flow with the cut node gets to the second piece but through the first one. -/
theorem beforePiece_of_before_split {j : Fin (flow.split n length).size} (h : (flow.split n length).Before j os) :
    flow.BeforePiece n length j os := by
  induction h with
  | entry => exact beforePiece_castSucc.2 .entry
  | @edge j m os _ hm ih =>
      obtain ⟨k, rfl⟩ | rfl := Fin.eq_castSucc_or_eq_last j
      · have hk : flow.Before k os := beforePiece_castSucc.1 ih
        by_cases hcut : k = n
        · subst hcut
          rw [exits_split_self, List.mem_singleton] at hm
          rw [occurrences_split_self, hm]
          exact beforePiece_last.2 ⟨os, hk, rfl⟩
        · rw [exits_split_of_ne hcut] at hm
          obtain ⟨m, hexit, rfl⟩ := List.mem_map.1 hm
          rw [occurrences_split_of_ne hcut]
          exact beforePiece_castSucc.2 (hk.edge hexit)
      · obtain ⟨earlier, hearlier, rfl⟩ := beforePiece_last.1 ih
        rw [exits_split_last] at hm
        obtain ⟨m, hexit, rfl⟩ := List.mem_map.1 hm
        rw [occurrences_split_last, List.append_assoc, List.take_append_drop]
        exact beforePiece_castSucc.2 (hearlier.edge hexit)

theorem before_split_castSucc_iff : (flow.split n length).Before k.castSucc os ↔ flow.Before k os :=
  ⟨fun h => beforePiece_castSucc.1 (beforePiece_of_before_split h), fun h => h.split n length⟩

theorem before_split_last_iff :
    (flow.split n length).Before (Fin.last flow.size) os ↔
      ∃ earlier, flow.Before n earlier ∧ os = earlier ++ (flow.occurrences n).take length := by
  constructor
  · intro h
    exact beforePiece_last.1 (beforePiece_of_before_split h)
  · rintro ⟨earlier, hearlier, rfl⟩
    rw [← occurrences_split_self]
    exact (hearlier.split n length).edge (exits_split_self ▸ List.mem_singleton.2 rfl)

/-- The nodes that can be reached are those of the whole flow, and the second piece with the first one. -/
theorem reachable_split_castSucc_iff : (flow.split n length).Reachable k.castSucc ↔ flow.Reachable k := by
  rw [reachable_iff_exists_before, reachable_iff_exists_before]
  simp only [before_split_castSucc_iff]

theorem reachable_split_last_iff : (flow.split n length).Reachable (Fin.last flow.size) ↔ flow.Reachable n := by
  rw [reachable_iff_exists_before, reachable_iff_exists_before]
  simp only [before_split_last_iff]
  constructor
  · rintro ⟨_, earlier, hearlier, -⟩
    exact ⟨earlier, hearlier⟩
  · rintro ⟨earlier, hearlier⟩
    exact ⟨_, earlier, hearlier, rfl⟩

theorem after_exit_split_iff :
    (flow.split n length).After (flow.split n length).exit os ↔ flow.After flow.exit os := by
  by_cases hexit : flow.exit = n
  · have hlast : (flow.split n length).exit = Fin.last flow.size := if_pos hexit
    rw [After, After, hlast, occurrences_split_last, hexit]
    simp only [before_split_last_iff]
    constructor
    · rintro ⟨_, ⟨earlier, hearlier, rfl⟩, rfl⟩
      exact ⟨earlier, hearlier, by rw [List.append_assoc, List.take_append_drop]⟩
    · rintro ⟨earlier, hearlier, rfl⟩
      exact ⟨_, ⟨earlier, hearlier, rfl⟩, by rw [List.append_assoc, List.take_append_drop]⟩
  · have hsame : (flow.split n length).exit = flow.exit.castSucc := if_neg hexit
    rw [After, After, hsame, occurrences_split_of_ne hexit]
    simp only [before_split_castSucc_iff]

/-- An occurrence of the node that was cut is in one of its pieces. -/
theorem performs_split_iff : (flow.split n length).Performs o ↔ flow.Performs o := by
  constructor
  · rintro ⟨j, hj, ho⟩
    obtain ⟨k, rfl⟩ | rfl := Fin.eq_castSucc_or_eq_last j
    · refine ⟨k, reachable_split_castSucc_iff.1 hj, ?_⟩
      by_cases hcut : k = n
      · subst hcut
        rw [occurrences_split_self] at ho
        exact List.mem_of_mem_take ho
      · rwa [occurrences_split_of_ne hcut] at ho
    · rw [occurrences_split_last] at ho
      exact ⟨n, reachable_split_last_iff.1 hj, List.mem_of_mem_drop ho⟩
  · rintro ⟨k, hk, ho⟩
    by_cases hcut : k = n
    · subst hcut
      rw [← List.take_append_drop length (flow.occurrences k), List.mem_append] at ho
      rcases ho with ho | ho
      · exact ⟨k.castSucc, reachable_split_castSucc_iff.2 hk, occurrences_split_self ▸ ho⟩
      · exact ⟨Fin.last flow.size, reachable_split_last_iff.2 hk, occurrences_split_last ▸ ho⟩
    · exact ⟨k.castSucc, reachable_split_castSucc_iff.2 hk, occurrences_split_of_ne hcut ▸ ho⟩

end Split

theorem alike_split (flow : Flow) (n : Fin flow.size) (length : Nat) : flow.Alike (flow.split n length) :=
  ⟨fun _ => performs_split_iff.symm, fun _ => after_exit_split_iff.symm⟩

/-- **What happens does not depend on the structure of a flow.** -/
theorem alike_of_eqvGen (h : Relation.EqvGen Restructures flow other) : flow.Alike other := by
  induction h with
  | rel flow other h =>
      cases h with
      | renumber e => exact (embeds_renumber flow e).alike
      | permuteExits n exits hexits => exact (embeds_setExits hexits).alike.symm
      | remove place entry exit hplace hentry hexit hcovers =>
          exact (embeds_select hplace hentry hexit hcovers).alike.symm
      | split n length => exact alike_split flow n length
  | refl flow => exact .refl flow
  | symm _ _ _ ih => exact ih.symm
  | trans _ _ _ _ _ ih ih' => exact ih.trans ih'

end Flow

end StorageFlow
