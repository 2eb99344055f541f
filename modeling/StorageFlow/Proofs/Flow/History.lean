/-
# StorageFlow.Proofs.Flow.History — what has happened when a node is reached.

The history of a path is the list of the occurrences along it.  Whoever compares two flows does not care which
nodes a path goes through, only what happens there: nodes may have other positions in the other flow, or be cut
into several pieces.  `Before` and `After` therefore speak of histories alone.  `Before` is inductive, so two flows
are compared by one case for the entry and one for an edge, without any list of nodes.

Main statements: `before_iff_exists_isPath` and `after_iff_exists_isPath` — histories are those of paths.
-/
import StorageFlow.Proofs.Flow.Path

namespace StorageFlow.Flow

variable {flow : Flow} {n k m : Fin flow.size} {os : List Occurrence}

/-- Some way to a node has a history, without the occurrences of the node itself. -/
inductive Before (flow : Flow) : Fin flow.size → List Occurrence → Prop
  | entry : Before flow flow.entry []
  | edge {k m : Fin flow.size} {os : List Occurrence} :
      Before flow k os → m ∈ flow.exits k → Before flow m (os ++ flow.occurrences k)

/-- Some way to a node has a history, with the occurrences of the node itself. -/
def After (flow : Flow) (n : Fin flow.size) (os : List Occurrence) : Prop :=
  ∃ earlier, flow.Before n earlier ∧ os = earlier ++ flow.occurrences n

theorem Before.after (h : flow.Before n os) : flow.After n (os ++ flow.occurrences n) :=
  ⟨os, h, rfl⟩

/-- **The histories before a node** are those of the paths to it. -/
theorem before_iff_exists_isPath :
    flow.Before n os ↔ ∃ before, flow.IsPath (before ++ [n]) ∧ flow.trace before = os := by
  constructor
  · intro h
    induction h with
    | entry => exact ⟨[], flow.isPath_entry, rfl⟩
    | @edge k m os _ hm ih =>
        obtain ⟨before, hpath, rfl⟩ := ih
        exact ⟨before ++ [k], isPath_snoc_iff.2 ⟨hpath, hm⟩, flow.trace_snoc before k⟩
  · rintro ⟨before, hpath, rfl⟩
    refine hpath.induction (P := fun before n => flow.Before n (flow.trace before)) .entry ?_
    intro before k m _ hm ih
    rw [trace_snoc]
    exact ih.edge hm

/-- **The histories after a node** are those of the paths to and through it. -/
theorem after_iff_exists_isPath :
    flow.After n os ↔ ∃ before, flow.IsPath (before ++ [n]) ∧ flow.trace (before ++ [n]) = os := by
  constructor
  · rintro ⟨earlier, hearlier, rfl⟩
    obtain ⟨before, hpath, rfl⟩ := before_iff_exists_isPath.1 hearlier
    exact ⟨before, hpath, flow.trace_snoc before n⟩
  · rintro ⟨before, hpath, rfl⟩
    exact ⟨flow.trace before, before_iff_exists_isPath.2 ⟨before, hpath, rfl⟩, flow.trace_snoc before n⟩

theorem Before.reachable (h : flow.Before n os) : flow.Reachable n := by
  obtain ⟨before, hpath, -⟩ := before_iff_exists_isPath.1 h
  exact reachable_iff_exists_isPath.2 ⟨before, hpath⟩

/-- Reachable are those nodes that have a history. -/
theorem reachable_iff_exists_before : flow.Reachable n ↔ ∃ os, flow.Before n os := by
  constructor
  · intro h
    obtain ⟨before, hpath⟩ := reachable_iff_exists_isPath.1 h
    exact ⟨_, before_iff_exists_isPath.2 ⟨before, hpath, rfl⟩⟩
  · rintro ⟨os, h⟩
    exact h.reachable

/-- A flow given by the occurrences of its nodes and the numbers of their successors.  It starts at the first node;
after the last one that is listed comes the exit, where nothing happens. -/
def sketch (name : Text) (rows : List (List Occurrence × List Nat)) : Flow where
  functionId := .ofNat 1
  name := name
  size := rows.length + 1
  nodes := rows.map (fun row => ⟨row.1, row.2.map (Fin.ofNat _)⟩) ++ [⟨[], []⟩]
  length_nodes := by simp
  entry := 0
  exit := Fin.last rows.length

end StorageFlow.Flow
