/-
# StorageFlow.Proofs.Flow.Calls — what the calls of a builder say.

A call adds a node, is on a node, or builds a flow.  On a node it mentions an occurrence or draws an edge.  From a
list of calls one can tell what was recorded in each node (`nodeOf`), without a builder: the occurrences in the order
of the calls, the distinct targets of the edges in the order of their first use.  One more call on a node adds to this
node only; the lemmas say what.

An occurrence that a call makes is a new one, whatever else is recorded (`eq_of_recorded`); one that is given to a
call stays the same wherever it is recorded.
-/
import StorageFlow.Proofs.Flow.Building

namespace StorageFlow.Flow

/-! ## Calls -/

/-- A call of a builder. -/
inductive Call where
  | node
  | edge (source target : Number)
  | declare (index : Number) (subject : Variable)
  | assign (index : Number) (subject : Variable) (site : Option Site)
  | inlineReference (index : Number) (subject : Variable) (site : Option Site)
  | access (index : Number) (subject : Variable) (site : Option Site)
  | occurrence (index : Number) (o : Occurrence)
  | build (entry exit : Number)
  deriving DecidableEq

/-- An occurrence as it is mentioned to a builder. -/
structure Mention where
  index : Number
  -- The occurrence that is recorded, depending on the place where this happens.
  occurrence : Place → Occurrence

/-- A node after an occurrence was mentioned on it. -/
def Mention.add (m : Mention) (position : Nat) (node : OpenNode) : OpenNode :=
  { node with occurrences := node.occurrences ++ [m.occurrence ⟨position, node.occurrences.length⟩] }

namespace Call

/-- The occurrence that is recorded by a call. -/
def mention? : Call → Option Mention
  | node | edge _ _ | build _ _ => none
  | declare index subject => some ⟨index, (⟨·, Touch.declaration.number, subject, none⟩)⟩
  | assign index subject site => some ⟨index, (⟨·, Touch.assignment.number, subject, site⟩)⟩
  | inlineReference index subject site => some ⟨index, (⟨·, Touch.inlineReference.number, subject, site⟩)⟩
  | access index subject site => some ⟨index, (⟨·, Touch.access.number, subject, site⟩)⟩
  -- It was made elsewhere, and is the same at any place.
  | occurrence index o => some ⟨index, fun _ => o⟩

/-- The source and the target of the edge that is recorded by a call. -/
def edge? : Call → Option (Number × Number)
  | edge source target => some (source, target)
  | _ => none

/-- The index of the node that a call is on. -/
def index? (c : Call) : Option Number := (c.mention?.map Mention.index).or (c.edge?.map Prod.fst)

end Call

/-! ## What was recorded -/

/-- The occurrences that were recorded in a node. -/
def occurrencesOf (calls : List Call) (n : Nat) : List Occurrence :=
  ((calls.filterMap Call.mention?).filter fun m => m.index = .ofNat n).mapIdx fun k m => m.occurrence ⟨n, k⟩

/-- The targets of the edges that were recorded from a node. -/
def targetsOf (calls : List Call) (n : Nat) : List Number :=
  ((calls.filterMap Call.edge?).filter fun e => e.1 = .ofNat n).map Prod.snd

/-- A node as it was recorded. -/
def nodeOf (calls : List Call) (n : Nat) : OpenNode := ⟨occurrencesOf calls n, (targetsOf calls n).eraseDups⟩

/-- A node as it was recorded, with its index. -/
def draftOf (calls : List Call) (n : Nat) : NodeDraft := ⟨.ofNat n, occurrencesOf calls n, (targetsOf calls n).eraseDups⟩

/-- Calls are on nodes that have been added. -/
def InScope (calls : List Call) : Prop :=
  ∀ c ∈ calls, ∀ index, c.index? = some index → IsPosition (calls.count .node) index

/-! ## Kinds of calls -/

section Kinds

variable {c : Call} {index : Number}

/-- A call on a node records an occurrence or an edge. -/
theorem Call.mention_or_edge (h : c.index? = some index) :
    (∃ m, c.mention? = some m ∧ c.edge? = none ∧ m.index = index) ∨ ∃ target, c = .edge index target := by
  cases c with
  | node | build _ _ => exact absurd h (by simp [Call.index?, Call.mention?, Call.edge?])
  | edge source target =>
      obtain rfl : source = index := Option.some.inj h
      exact .inr ⟨target, rfl⟩
  | declare _ _ | assign _ _ _ | inlineReference _ _ _ | access _ _ _ | occurrence _ _ =>
      exact .inl ⟨_, rfl, rfl, Option.some.inj h⟩

theorem Call.node_or_build (h : c.index? = none) : c = .node ∨ ∃ entry exit, c = .build entry exit := by
  cases c with
  | node => exact .inl rfl
  | build entry exit => exact .inr ⟨entry, exit, rfl⟩
  | _ => exact absurd h (by simp [Call.index?, Call.mention?, Call.edge?])

theorem Call.ne_node_of_index? (h : c.index? = some index) : c ≠ .node := by
  rintro rfl
  exact absurd h (by simp [Call.index?, Call.mention?, Call.edge?])

theorem Call.index?_of_mention {m : Mention} (hm : c.mention? = some m) : c.index? = some m.index := by
  rw [Call.index?, hm]
  rfl

theorem Call.index?_of_edge {e : Number × Number} (he : c.edge? = some e) : c.index? = some e.1 := by
  cases c with
  | edge source target => exact congrArg (Option.map Prod.fst) he
  | _ => exact absurd he (by simp [Call.edge?])

end Kinds

/-! ## One call more -/

section NodeOf

variable {calls : List Call} {c : Call} {n : Nat}

theorem occurrencesOf_snoc_of_mention {m : Mention} (hm : c.mention? = some m) :
    occurrencesOf (calls ++ [c]) n =
      if m.index = .ofNat n then
        occurrencesOf calls n ++ [m.occurrence ⟨n, (occurrencesOf calls n).length⟩]
      else occurrencesOf calls n := by
  split
  · next h => simp [occurrencesOf, List.filterMap_append, hm, h, List.mapIdx_concat]
  · next h => simp [occurrencesOf, List.filterMap_append, hm, h]

theorem occurrencesOf_snoc_of_none (hm : c.mention? = none) :
    occurrencesOf (calls ++ [c]) n = occurrencesOf calls n := by
  simp [occurrencesOf, List.filterMap_append, hm]

theorem targetsOf_snoc_of_edge {source target : Number} (he : c.edge? = some (source, target)) :
    targetsOf (calls ++ [c]) n = if source = .ofNat n then targetsOf calls n ++ [target] else targetsOf calls n := by
  split
  · next h => simp [targetsOf, List.filterMap_append, he, h]
  · next h => simp [targetsOf, List.filterMap_append, he, h]

theorem mem_targetsOf {target : Number} : target ∈ targetsOf calls n ↔ .edge (.ofNat n) target ∈ calls := by
  have hedge (c : Call) (source : Number) : c.edge? = some (source, target) ↔ c = .edge source target := by
    cases c <;> simp [Call.edge?]
  simp [targetsOf, hedge]

theorem targetsOf_snoc_of_none (he : c.edge? = none) : targetsOf (calls ++ [c]) n = targetsOf calls n := by
  simp [targetsOf, List.filterMap_append, he]

theorem nodeOf_snoc_of_none (hm : c.mention? = none) (he : c.edge? = none) :
    nodeOf (calls ++ [c]) n = nodeOf calls n := by
  rw [nodeOf, occurrencesOf_snoc_of_none hm, targetsOf_snoc_of_none he, nodeOf]

theorem nodeOf_snoc_of_mention {m : Mention} (hm : c.mention? = some m) (he : c.edge? = none) :
    nodeOf (calls ++ [c]) n = if m.index = .ofNat n then m.add n (nodeOf calls n) else nodeOf calls n := by
  rw [nodeOf, occurrencesOf_snoc_of_mention hm, targetsOf_snoc_of_none he]
  split <;> rfl

theorem nodeOf_snoc_edge {source target : Number} :
    nodeOf (calls ++ [.edge source target]) n =
      if source = .ofNat n then
        if target ∈ (nodeOf calls n).exits then nodeOf calls n
        else { nodeOf calls n with exits := (nodeOf calls n).exits ++ [target] }
      else nodeOf calls n := by
  have hm : (Call.edge source target).mention? = none := rfl
  rw [nodeOf, occurrencesOf_snoc_of_none hm, targetsOf_snoc_of_edge rfl]
  split
  · rw [← recordEdge_eraseDups, recordEdge]
    split
    · next h => rw [nodeOf, if_pos h]
    · next h => rw [nodeOf, if_neg h]
  · rfl

end NodeOf

/-! ## Which occurrences are the same -/

section Identity

variable {calls : List Call} {c : Call} {n m k l : Nat} {o : Occurrence}

/-- What a call records was given to it, or is identified by the place. -/
theorem Call.given_or_made {mention : Mention} (hm : c.mention? = some mention) (place : Place) :
    c = .occurrence mention.index (mention.occurrence place) ∨ (mention.occurrence place).place = place := by
  cases c with
  | node | edge _ _ | build _ _ => exact absurd hm (by simp [Call.mention?])
  | occurrence index o =>
      obtain rfl := Option.some.inj hm
      exact .inl rfl
  | declare _ _ | assign _ _ _ | inlineReference _ _ _ | access _ _ _ =>
      obtain rfl := Option.some.inj hm
      exact .inr rfl

theorem given_or_made (h : (occurrencesOf calls n)[k]? = some o) :
    .occurrence (.ofNat n) o ∈ calls ∨ o.place = ⟨n, k⟩ := by
  rw [occurrencesOf, List.getElem?_mapIdx] at h
  obtain ⟨mention, hmention, rfl⟩ := Option.map_eq_some_iff.1 h
  obtain ⟨hmem, hindex⟩ := List.mem_filter.1 (List.mem_of_getElem? hmention)
  obtain ⟨c, hc, hm⟩ := List.mem_filterMap.1 hmem
  have hindex : mention.index = .ofNat n := by simpa using hindex
  rcases Call.given_or_made hm ⟨n, k⟩ with hgiven | hmade
  · rw [hindex] at hgiven
    exact .inl (hgiven ▸ hc)
  · exact .inr hmade

/-- **An occurrence that is not given to any call is recorded once.** -/
theorem eq_of_recorded (hmade : ∀ index, .occurrence index o ∉ calls) (h : (occurrencesOf calls n)[k]? = some o)
    (h' : (occurrencesOf calls m)[l]? = some o) : n = m ∧ k = l := by
  have hplace : o.place = ⟨n, k⟩ := (given_or_made h).resolve_left (hmade _)
  have hplace' : o.place = ⟨m, l⟩ := (given_or_made h').resolve_left (hmade _)
  exact Place.mk.inj (hplace.symm.trans hplace')

end Identity

/-! ## Nodes that were added -/

section InScope

variable {calls : List Call} {c : Call}

theorem count_node_snoc : (calls ++ [Call.node]).count .node = calls.count .node + 1 := by simp

theorem count_node_snoc_of_ne (h : c ≠ .node) : (calls ++ [c]).count .node = calls.count .node := by
  simp [List.count_append, h]

theorem inScope_nil : InScope [] := fun _ hc => absurd hc List.not_mem_nil

theorem InScope.snoc (h : InScope calls)
    (hc : ∀ index, c.index? = some index → IsPosition (calls.count .node) index) : InScope (calls ++ [c]) := by
  have hmore : calls.count .node ≤ (calls ++ [c]).count .node := by simp [List.count_append]
  intro other hother index hindex
  rcases List.mem_append.1 hother with hother | hother
  · exact (h other hother index hindex).mono hmore
  · exact (hc index (List.mem_singleton.1 hother ▸ hindex)).mono hmore

/-- Nothing was recorded in a node that has not been added. -/
theorem InScope.nodeOf_eq (h : InScope calls) : nodeOf calls (calls.count .node) = ⟨[], []⟩ := by
  have hoccurrences : occurrencesOf calls (calls.count .node) = [] := by
    rw [occurrencesOf, List.mapIdx_eq_nil_iff, List.filter_eq_nil_iff]
    intro m hm
    obtain ⟨c, hc, hm⟩ := List.mem_filterMap.1 hm
    simpa using (h c hc m.index (Call.index?_of_mention hm)).ne_ofNat
  have htargets : targetsOf calls (calls.count .node) = [] := by
    rw [targetsOf, List.map_eq_nil_iff, List.filter_eq_nil_iff]
    intro e he
    obtain ⟨c, hc, he⟩ := List.mem_filterMap.1 he
    simpa using (h c hc e.1 (Call.index?_of_edge he)).ne_ofNat
  rw [nodeOf, hoccurrences, htargets, List.eraseDups_nil]

end InScope

end StorageFlow.Flow
