/-
# StorageFlow.Worklist — pending nodes, each at most once.

A `Worklist κ` holds the nodes that a solver still has to process.  Pushing a node that is pending changes
nothing, so the list of pending nodes never repeats one; taking a node removes the newest (`lifo`) or the
oldest (`fifo`) of them.  The set `queued` answers "is it pending?" without walking the list.
-/
import StorageFlow.FiniteSet

namespace StorageFlow

universe u

/-- The order in which pending nodes are taken. -/
inductive Order where
  | lifo
  | fifo
  deriving DecidableEq, Repr, Inhabited

/-- Pending nodes, each at most once. -/
structure Worklist (κ : Type u) where
  order : Order
  -- The pending nodes, in the order of their pushes.
  pending : List κ
  queued : FiniteSet κ

namespace Worklist

variable {κ : Type u}

/-- The worklist without pending nodes. -/
def empty (order : Order) : Worklist κ := ⟨order, [], FiniteSet.empty⟩

/-- The list and the set of pending nodes agree, and the list repeats none. -/
structure Consistent (w : Worklist κ) : Prop where
  nodup : w.pending.Nodup
  mem_queued_iff : ∀ node, node ∈ w.queued ↔ node ∈ w.pending

theorem consistent_empty (order : Order) : (empty order : Worklist κ).Consistent :=
  ⟨.nil, fun node => iff_of_false (FiniteSet.not_mem_empty node) List.not_mem_nil⟩

variable [DecidableEq κ]

/-- Makes a node the newest pending one, unless it is pending already. -/
def push (w : Worklist κ) (node : κ) : Worklist κ :=
  if node ∈ w.queued then w
  else { w with pending := w.pending ++ [node], queued := w.queued.insert node }

/-- The worklist without a node that was taken out of the pending ones. -/
def release (w : Worklist κ) (node : κ) (rest : List κ) : Worklist κ :=
  { w with pending := rest, queued := w.queued.erase node }

/-- Takes the next node in the order of the worklist; there is none if nothing is pending. -/
def pop (w : Worklist κ) : Option (κ × Worklist κ) :=
  match w.order with
  | .lifo => w.pending.getLast?.map fun node => (node, w.release node w.pending.dropLast)
  | .fifo => w.pending.head?.map fun node => (node, w.release node w.pending.tail)

theorem push_of_mem {w : Worklist κ} {node : κ} (h : node ∈ w.queued) : w.push node = w := if_pos h

theorem pending_push_of_not_mem {w : Worklist κ} {node : κ} (h : ¬ node ∈ w.queued) :
    (w.push node).pending = w.pending ++ [node] := by
  rw [push, if_neg h]

@[simp] theorem order_push (w : Worklist κ) (node : κ) : (w.push node).order = w.order := by
  unfold push; split <;> rfl

end Worklist

end StorageFlow
