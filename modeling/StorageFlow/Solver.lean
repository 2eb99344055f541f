/-
# StorageFlow.Solver — forward data-flow problems, solved with a worklist.

A `Problem` is a graph with an entry node and a transfer function that turns the facts before a node into
the facts after it.  Solving starts at the entry with the least facts.  Each processed node runs the
transfer function over its incoming facts and merges the result into the incoming facts of every
successor; a successor is scheduled when its facts grew or when it was not processed before.

Incoming facts only grow, and their size is bounded by the height of the problem, so at most
`nodeCount * height` merges extend facts and at most `nodeCount + nodeCount * height` nodes are processed.
`Problem.solve` runs for that many steps, which is why it is total on cyclic graphs too.
-/
import StorageFlow.Solution
import StorageFlow.Worklist

namespace StorageFlow

universe u

/-- A forward data-flow problem over the nodes `κ` with facts in `σ`. -/
structure Problem (κ σ ε : Type u) where
  entry : κ
  -- The successors of a node, in the order in which facts are passed on; repetitions are allowed.
  exits : κ → List κ
  transfer : κ → σ → Except ε σ
  nodeCount : Nat
  -- A bound on the size of the facts that can be reached.
  height : Nat

namespace Problem

variable {κ σ ε : Type u}

/-- What a solver holds between two steps. -/
structure State (κ σ : Type u) where
  worklist : Worklist κ
  solution : Solution κ σ

variable [DecidableEq κ] [JoinLattice σ]

/-- Merges the facts after a node into a successor, and schedules the successor if that extended its facts
or if it was not processed before. -/
def propagate (out : σ) (s : State κ σ) (successor : κ) : State κ σ :=
  let merged := joinInto (s.solution.inState successor) out
  let solution := s.solution.setInState successor merged.1
  { worklist :=
      -- A node that was never processed is due even if nothing new arrives at it.
      if merged.2 || !solution.isVisited successor then s.worklist.push successor else s.worklist
    solution := if merged.2 then solution.countGrowth else solution }

/-- Processes a node that was taken from the worklist. -/
def visit (p : Problem κ σ ε) (node : κ) (s : State κ σ) : Except ε (State κ σ) :=
  (p.transfer node (s.solution.inState node)).map fun out =>
    let solution := s.solution.countIteration.setOutState node out
    -- The node counts as processed before its facts are passed on: it may be its own successor.
    (p.exits node).foldl (propagate out) { s with solution }

/-- Takes the next node and processes it; there is no step if nothing is pending. -/
def step (p : Problem κ σ ε) (s : State κ σ) : Option (Except ε (State κ σ)) :=
  s.worklist.pop.map fun (node, worklist) => p.visit node { s with worklist }

/-- The state before the first step: the entry is pending and nothing is known. -/
def start (p : Problem κ σ ε) (order : Order) : State κ σ :=
  ⟨(Worklist.empty order).push p.entry, Solution.empty⟩

/-- Takes at most the given number of steps, fewer if nothing is pending. -/
def run (p : Problem κ σ ε) : Nat → State κ σ → Except ε (State κ σ)
  | 0, s => .ok s
  | steps + 1, s =>
    match p.step s with
    | none => .ok s
    | some next => next.bind (p.run steps)

/-- The largest number of nodes that can be processed: each once, and once more for each merge that can
extend the facts of a node. -/
def stepBound (p : Problem κ σ ε) : Nat := p.nodeCount + p.nodeCount * p.height

/-- Finds the least facts that hold at every node reachable from the entry. -/
def solve (p : Problem κ σ ε) (order : Order) : Except ε (Solution κ σ) :=
  (p.run p.stepBound (p.start order)).map State.solution

end Problem

end StorageFlow
