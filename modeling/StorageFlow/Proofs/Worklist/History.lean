/-
# StorageFlow.Proofs.Worklist.History — a stack or a queue that repeats nothing.

Pushes and pops may come in any order, and a pop that finds nothing pending takes nothing and changes nothing.  Seen
from one call to the next, a worklist is a list of pending nodes to which a push adds at the end what is not in it
yet, and from which a pop takes the last node or the first one.

For whole histories two facts about one node are enough.  It stops being pending only by a pop that takes it, and it
becomes pending only by a push.  So no push is lost: where nothing is pending in the end, a later pop has taken the
node of every push.  And nothing is taken twice: between two pops that take the same node it was pushed again.
Main statement: `discipline_of_calls`.
-/
import StorageFlow.Proofs.Worklist.Pending

namespace StorageFlow.Worklist

universe u

/-! ## Calls -/

/-- A call of a worklist. -/
inductive Call (κ : Type u) where
  | push (node : κ)
  | pop
  deriving DecidableEq

section Calls

variable {κ : Type u} [DecidableEq κ]

/-- The node that a pop takes; there is none if nothing is pending. -/
def next? (w : Worklist κ) : Option κ := w.pop.map Prod.fst

/-- The worklist after a call.  A pop that takes nothing changes nothing. -/
def perform (w : Worklist κ) : Call κ → Worklist κ
  | .push node => w.push node
  | .pop => (w.pop.map Prod.snd).getD w

/-- The worklist after some calls. -/
def performAll (w : Worklist κ) (calls : List (Call κ)) : Worklist κ := calls.foldl perform w

/-- The worklist after some calls, if nothing was pending before them. -/
def after (order : Order) (calls : List (Call κ)) : Worklist κ := (empty order).performAll calls

end Calls

variable {κ : Type u} [DecidableEq κ] {w : Worklist κ} {node k : κ} {c : Call κ} {order : Order}
  {calls before later : List (Call κ)}

/-! ## One call -/

/-- A pop takes the next node, or nothing is pending and nothing changes. -/
theorem pop_cases (w : Worklist κ) :
    (w.pending = [] ∧ w.next? = none ∧ w.perform .pop = w) ∨
      ∃ node, w.pop = some (node, w.perform .pop) ∧ w.next? = some node := by
  cases hpop : w.pop with
  | none =>
      left
      refine ⟨pop_eq_none_iff.1 hpop, ?_, ?_⟩
      · rw [next?, hpop, Option.map_none]
      · rw [perform, hpop, Option.map_none, Option.getD_none]
  | some taken =>
      right
      refine ⟨taken.1, ?_, ?_⟩
      · rw [perform, hpop, Option.map_some, Option.getD_some]
      · rw [next?, hpop, Option.map_some]

theorem next?_eq_none_iff : w.next? = none ↔ w.pending = [] := by
  rw [next?, Option.map_eq_none_iff, pop_eq_none_iff]

theorem order_perform (w : Worklist κ) (c : Call κ) : (w.perform c).order = w.order := by
  cases c with
  | push node => exact order_push w node
  | pop =>
      unfold perform pop
      cases horder : w.order with
      | lifo => cases w.pending.getLast? <;> simp [horder, release]
      | fifo => cases w.pending.head? <;> simp [horder, release]

/-- A stack gives back the last pending node. -/
theorem pop_of_lifo (h : w.order = .lifo) :
    w.next? = w.pending.getLast? ∧ (w.perform .pop).pending = w.pending.dropLast := by
  unfold next? perform pop
  rw [h]
  cases hlast : w.pending.getLast? with
  | none =>
      have hnil : w.pending = [] := List.getLast?_eq_none_iff.1 hlast
      simp [hnil]
  | some last => simp [release]

/-- A queue gives back the first pending node. -/
theorem pop_of_fifo (h : w.order = .fifo) :
    w.next? = w.pending.head? ∧ (w.perform .pop).pending = w.pending.tail := by
  unfold next? perform pop
  rw [h]
  cases hfirst : w.pending.head? with
  | none =>
      have hnil : w.pending = [] := List.head?_eq_none_iff.1 hfirst
      simp [hnil]
  | some first => simp [release]

theorem consistent_perform (h : w.Consistent) (c : Call κ) : (w.perform c).Consistent := by
  cases c with
  | push node => exact consistent_push h node
  | pop =>
      rcases pop_cases w with ⟨-, -, hsame⟩ | ⟨node, hpop, -⟩
      · rwa [hsame]
      · exact consistent_of_pop h hpop

/-- Only a pop that takes a node ends that it is pending. -/
theorem eq_pop_of_leaves (h : w.Consistent) (hk : k ∈ w.pending) (hleaves : k ∉ (w.perform c).pending) :
    c = .pop ∧ w.next? = some k := by
  cases c with
  | push node => exact absurd ((mem_pending_push h).2 (.inl hk)) hleaves
  | pop =>
      refine ⟨rfl, ?_⟩
      rcases pop_cases w with ⟨hnil, -, -⟩ | ⟨node, hpop, hnext⟩
      · exact absurd (hnil ▸ hk) List.not_mem_nil
      · by_cases e : k = node
        · rw [hnext, e]
        · exact absurd ((mem_pending_of_pop h hpop).2 ⟨hk, e⟩) hleaves

/-- Only a push of a node makes it pending. -/
theorem eq_push_of_arrives (h : w.Consistent) (hk : k ∉ w.pending) (harrives : k ∈ (w.perform c).pending) :
    c = .push k := by
  cases c with
  | push node =>
      rcases (mem_pending_push h).1 harrives with hmem | rfl
      · exact absurd hmem hk
      · rfl
  | pop =>
      rcases pop_cases w with ⟨-, -, hsame⟩ | ⟨node, hpop, -⟩
      · exact absurd (hsame ▸ harrives) hk
      · exact absurd ((mem_pending_of_pop h hpop).1 harrives).1 hk

theorem pop_of_next? (hnext : w.next? = some k) : w.pop = some (k, w.perform .pop) := by
  rcases pop_cases w with ⟨-, hnone, -⟩ | ⟨node, hpop, hsome⟩
  · exact absurd (hnone.symm.trans hnext) (by simp)
  · obtain rfl : node = k := Option.some.inj (hsome.symm.trans hnext)
    exact hpop

theorem mem_pending_of_next? (hnext : w.next? = some k) : k ∈ w.pending := mem_of_pop (pop_of_next? hnext)

/-- The node that a pop takes is not pending any more. -/
theorem not_mem_pending_of_next? (h : w.Consistent) (hnext : w.next? = some k) :
    k ∉ (w.perform .pop).pending := by
  intro hmem
  exact ((mem_pending_of_pop h (pop_of_next? hnext)).1 hmem).2 rfl

theorem length_pending_perform_pop (w : Worklist κ) :
    (w.perform .pop).pending.length = w.pending.length - 1 := by
  rcases pop_cases w with ⟨hnil, -, hsame⟩ | ⟨node, hpop, -⟩
  · rw [hsame, hnil, List.length_nil]
  · rw [(pending_perm_of_pop hpop).length_eq, List.length_cons, Nat.add_sub_cancel]

/-! ## Whole histories -/

theorem performAll_append (w : Worklist κ) (calls later : List (Call κ)) :
    w.performAll (calls ++ later) = (w.performAll calls).performAll later := List.foldl_append

theorem after_append : after order (calls ++ later) = (after order calls).performAll later :=
  performAll_append _ calls later

theorem order_performAll (w : Worklist κ) (calls : List (Call κ)) : (w.performAll calls).order = w.order := by
  induction calls generalizing w with
  | nil => rfl
  | cons c calls ih => exact (ih (w.perform c)).trans (order_perform w c)

theorem consistent_performAll (h : w.Consistent) (calls : List (Call κ)) : (w.performAll calls).Consistent := by
  induction calls generalizing w with
  | nil => exact h
  | cons c calls ih => exact ih (consistent_perform h c)

theorem consistent_after (order : Order) (calls : List (Call κ)) : (after order calls).Consistent :=
  consistent_performAll (consistent_empty order) calls

/-- A node that was pending and is so no longer was taken by one of the pops. -/
theorem exists_pop_of_leaves (h : w.Consistent) (hk : k ∈ w.pending) (hleaves : k ∉ (w.performAll later).pending) :
    ∃ earlier rest, later = earlier ++ .pop :: rest ∧ (w.performAll earlier).next? = some k := by
  induction later generalizing w with
  | nil => exact absurd hk hleaves
  | cons c later ih =>
      by_cases hstays : k ∈ (w.perform c).pending
      · obtain ⟨earlier, rest, rfl, hnext⟩ := ih (consistent_perform h c) hstays hleaves
        exact ⟨c :: earlier, rest, rfl, hnext⟩
      · obtain ⟨rfl, hnext⟩ := eq_pop_of_leaves h hk hstays
        exact ⟨[], later, rfl, hnext⟩

/-- A node that was not pending and is so now was pushed. -/
theorem push_mem_of_arrives (h : w.Consistent) (hk : k ∉ w.pending) (harrives : k ∈ (w.performAll later).pending) :
    .push k ∈ later := by
  induction later generalizing w with
  | nil => exact absurd harrives hk
  | cons c later ih =>
      by_cases harrived : k ∈ (w.perform c).pending
      · exact eq_push_of_arrives h hk harrived ▸ List.mem_cons_self
      · exact List.mem_cons_of_mem c (ih (consistent_perform h c) harrived harrives)

/-- If nothing is pending in the end, then a pop after a push has taken the node that was pushed. -/
theorem exists_pop_after_push (hempty : (after order (before ++ .push k :: later)).pending = []) :
    ∃ earlier rest, later = earlier ++ .pop :: rest ∧
      (after order (before ++ .push k :: earlier)).next? = some k := by
  have hpushed : ((after order before).push k).Consistent := consistent_push (consistent_after order before) k
  have hk : k ∈ ((after order before).push k).pending :=
    (mem_pending_push (consistent_after order before)).2 (.inr rfl)
  have hleaves : k ∉ (((after order before).push k).performAll later).pending := by
    rw [after_append] at hempty
    exact hempty ▸ List.not_mem_nil
  obtain ⟨earlier, rest, hlater, hnext⟩ := exists_pop_of_leaves hpushed hk hleaves
  refine ⟨earlier, rest, hlater, ?_⟩
  rw [after_append]
  exact hnext

/-- A node that a pop takes was pushed after any earlier pop that took it. -/
theorem push_mem_between_pops {between : List (Call κ)} (hfirst : (after order before).next? = some k)
    (hsecond : (after order (before ++ .pop :: between)).next? = some k) : .push k ∈ between := by
  have hpopped : ((after order before).perform .pop).Consistent :=
    consistent_perform (consistent_after order before) .pop
  have hgone : k ∉ ((after order before).perform .pop).pending :=
    not_mem_pending_of_next? (consistent_after order before) hfirst
  rw [after_append] at hsecond
  exact push_mem_of_arrives hpopped hgone (mem_pending_of_next? hsecond)

/-- As many pops as there are pending nodes leave none. -/
theorem pending_performAll_pops (w : Worklist κ) :
    (w.performAll (List.replicate w.pending.length .pop)).pending = [] := by
  generalize hn : w.pending.length = n
  induction n generalizing w with
  | zero => exact List.length_eq_zero_iff.1 hn
  | succ n ih =>
      have hrest : (w.perform .pop).pending.length = n := by
        rw [length_pending_perform_pop, hn, Nat.add_sub_cancel]
      exact ih (w.perform .pop) hrest

/-! ## The discipline -/

/-- What is to be expected of a stack or a queue that repeats nothing, after some calls. -/
structure Discipline (order : Order) (calls : List (Call κ)) : Prop where
  nodup : (after order calls).pending.Nodup
  mem_queued_iff (k : κ) : k ∈ (after order calls).queued ↔ k ∈ (after order calls).pending
  -- A node that is pending keeps its place, any other one becomes the last.
  push_pending (k : κ) : k ∈ (after order calls).pending →
    after order (calls ++ [.push k]) = after order calls
  push_new (k : κ) : k ∉ (after order calls).pending →
    (after order (calls ++ [.push k])).pending = (after order calls).pending ++ [k]
  -- A stack gives back the last pending node, a queue the first one.
  pop_lifo : order = .lifo → (after order calls).next? = (after order calls).pending.getLast? ∧
    (after order (calls ++ [.pop])).pending = (after order calls).pending.dropLast
  pop_fifo : order = .fifo → (after order calls).next? = (after order calls).pending.head? ∧
    (after order (calls ++ [.pop])).pending = (after order calls).pending.tail
  pop_nothing : (after order calls).next? = none ↔ (after order calls).pending = []
  -- Popping can be continued until nothing is pending.
  emptied : (after order (calls ++ List.replicate (after order calls).pending.length .pop)).pending = []
  -- If nothing is pending in the end, then every push, also the last one of a node, has a later pop that took the node.
  popped_after_push (k : κ) (before later : List (Call κ)) : calls = before ++ .push k :: later →
    (after order calls).pending = [] →
    ∃ earlier rest, later = earlier ++ .pop :: rest ∧
      (after order (before ++ .push k :: earlier)).next? = some k
  -- A node that two pops take is pushed between them.
  pushed_between_pops (k : κ) (before between later : List (Call κ)) :
    calls = before ++ .pop :: (between ++ .pop :: later) → (after order before).next? = some k →
    (after order (before ++ .pop :: between)).next? = some k → .push k ∈ between

/-- **A worklist is a stack or a queue that repeats nothing.** -/
theorem discipline_of_calls (order : Order) (calls : List (Call κ)) : Discipline order calls := by
  have hconsistent : (after order calls).Consistent := consistent_after order calls
  have horder : (after order calls).order = order := order_performAll _ calls
  constructor
  · exact hconsistent.nodup
  · exact hconsistent.mem_queued_iff
  · intro k hk
    rw [after_append]
    exact push_of_mem_pending hconsistent hk
  · intro k hk
    rw [after_append]
    exact pending_push hconsistent hk
  · rintro rfl
    rw [after_append]
    exact pop_of_lifo horder
  · rintro rfl
    rw [after_append]
    exact pop_of_fifo horder
  · exact next?_eq_none_iff
  · rw [after_append]
    exact pending_performAll_pops _
  · rintro k before later rfl hempty
    exact exists_pop_after_push hempty
  · intro k before between later _ hfirst hsecond
    exact push_mem_between_pops hfirst hsecond

/-- The second push of the first node does not move it, and a push after its pop makes it pending again. -/
example : (after .fifo [.push 1, .push 2, .push 1, .pop, .push 1]).pending = [2, 1] ∧
    (after .lifo [.push 1, .push 2, .push 1, .pop, .push 1]).pending = [1] := by
  decide

end StorageFlow.Worklist
