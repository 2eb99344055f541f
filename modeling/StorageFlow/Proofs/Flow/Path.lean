/-
# StorageFlow.Proofs.Flow.Path — the paths of a flow.

A path is a list of nodes that starts at the entry and goes from each node to one of its successors.  It may
be of any length and may come by the same node many times, so a flow with a loop has infinitely many paths.
Solvers and analyses look at a path from its end: they know what has arrived at a node and pass it on to the
next one.  That is why paths are taken apart at their last node here, and why `IsPath.induction` grows a path
there.
-/
import Mathlib.Data.List.Chain
import Mathlib.Logic.Relation
import StorageFlow.Flow

namespace StorageFlow.Flow

variable {flow : Flow} {before : List (Fin flow.size)} {n k m : Fin flow.size}

/-- A node is reachable if successors lead to it from the entry. -/
def Reachable (flow : Flow) (n : Fin flow.size) : Prop :=
  Relation.ReflTransGen (fun k m => m ∈ flow.exits k) flow.entry n

/-- A list of nodes that leads from the entry along successors. -/
structure IsPath (flow : Flow) (path : List (Fin flow.size)) : Prop where
  head? : path.head? = some flow.entry
  chain : path.IsChain fun k m => m ∈ flow.exits k

/-- The path that goes nowhere. -/
theorem isPath_entry (flow : Flow) : flow.IsPath [flow.entry] :=
  ⟨rfl, List.isChain_singleton _⟩

/-- A path of one node consists of the entry. -/
theorem eq_entry_of_isPath (h : flow.IsPath [n]) : n = flow.entry :=
  Option.some.inj h.head?

/-- A path can be continued with a successor of its last node, and with nothing else. -/
theorem isPath_snoc_iff :
    flow.IsPath (before ++ [k] ++ [m]) ↔ flow.IsPath (before ++ [k]) ∧ m ∈ flow.exits k := by
  have hhead : (before ++ [k] ++ [m]).head? = (before ++ [k]).head? := by
    cases before <;> rfl
  have hchain : (before ++ [k] ++ [m]).IsChain (fun k m => m ∈ flow.exits k) ↔
      (before ++ [k]).IsChain (fun k m => m ∈ flow.exits k) ∧ m ∈ flow.exits k := by
    rw [List.append_assoc, List.singleton_append, List.isChain_append_cons_cons]
    simp
  constructor
  · rintro ⟨hentry, hnodes⟩
    exact ⟨⟨hhead ▸ hentry, (hchain.1 hnodes).1⟩, (hchain.1 hnodes).2⟩
  · rintro ⟨⟨hentry, hnodes⟩, hm⟩
    exact ⟨hhead ▸ hentry, hchain.2 ⟨hnodes, hm⟩⟩

/-- **Induction over paths**, from the entry to the last node. -/
theorem IsPath.induction {P : List (Fin flow.size) → Fin flow.size → Prop}
    (entry : P [] flow.entry)
    (step : ∀ before k m, flow.IsPath (before ++ [k]) → m ∈ flow.exits k → P before k →
      P (before ++ [k]) m)
    (h : flow.IsPath (before ++ [n])) : P before n := by
  induction before using List.reverseRecOn generalizing n with
  | nil =>
      rw [eq_entry_of_isPath h]
      exact entry
  | append_singleton before k ih =>
      obtain ⟨hk, hn⟩ := isPath_snoc_iff.1 h
      exact step before k n hk hn (ih hk)

/-- The nodes at the ends of paths are the reachable ones. -/
theorem reachable_iff_exists_isPath : flow.Reachable n ↔ ∃ before, flow.IsPath (before ++ [n]) := by
  constructor
  · intro h
    induction h with
    | refl => exact ⟨[], flow.isPath_entry⟩
    | @tail k m _ hm ih =>
        obtain ⟨before, hk⟩ := ih
        exact ⟨before ++ [k], isPath_snoc_iff.2 ⟨hk, hm⟩⟩
  · rintro ⟨before, h⟩
    refine h.induction (P := fun _ n => flow.Reachable n) .refl ?_
    intro _ k m _ hm hk
    exact hk.tail hm

/-! ## What happens along a path -/

/-- The occurrences along a list of nodes, in the order in which they happen. -/
def trace (flow : Flow) (path : List (Fin flow.size)) : List Occurrence :=
  path.flatMap flow.occurrences

theorem trace_snoc (flow : Flow) (before : List (Fin flow.size)) (n : Fin flow.size) :
    flow.trace (before ++ [n]) = flow.trace before ++ flow.occurrences n := by
  rw [trace, List.flatMap_append, List.flatMap_singleton]
  rfl

end StorageFlow.Flow
