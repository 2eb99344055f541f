/-
# StorageFlow.Proofs.Program.Faults — all that is wrong with a program document.

Loading ends with the first violation that it meets.  Here the violations of a document are listed without
regard to loading, all of them, in the order in which a reader of the document comes by them: function by
function, its identifier, the lack of a flow, its variables, node by node the occurrences and then the edges,
the entry and the exit.  A document without faults is acceptable, and the other way round
(`ProgramDocument.faults_eq_nil_iff`); `Acceptable` does not mention any order.
-/
import Mathlib.Data.List.Nodup
import StorageFlow.Program.Loader

namespace StorageFlow.Program

/-! ## Keys that must be distinct -/

section Distinct

variable {α : Type}

/-- The faults of the items of a list whose keys must be distinct: for each item that its key is taken, and
then its own. -/
def distinctFaults (key : α → Nat) (taken : α → Failure) (own : α → List Failure) :
    List Nat → List α → List Failure
  | _, [] => []
  | earlier, a :: as =>
    (if key a ∉ earlier then [] else [taken a]) ++ own a ++
      distinctFaults key taken own (key a :: earlier) as

theorem distinctFaults_eq_nil_iff {key : α → Nat} {taken : α → Failure} {own : α → List Failure}
    {earlier : List Nat} {as : List α} :
    distinctFaults key taken own earlier as = [] ↔
      (∀ a ∈ as, key a ∉ earlier) ∧ (as.map key).Nodup ∧ ∀ a ∈ as, own a = [] := by
  induction as generalizing earlier with
  | nil => simp [distinctFaults]
  | cons a as ih =>
      have hhead : (if key a ∉ earlier then [] else [taken a]) = [] ↔ key a ∉ earlier := by
        split <;> simp_all
      rw [distinctFaults, List.append_eq_nil_iff, List.append_eq_nil_iff, hhead, ih, List.map_cons,
        List.nodup_cons, List.forall_mem_cons, List.forall_mem_cons]
      constructor
      · rintro ⟨⟨hfresh, hown⟩, hothers, hnodup, howns⟩
        refine ⟨⟨hfresh, fun b hb hmem => hothers b hb (List.mem_cons_of_mem _ hmem)⟩, ⟨?_, hnodup⟩,
          hown, howns⟩
        intro hmem
        obtain ⟨b, hb, hkey⟩ := List.mem_map.1 hmem
        exact hothers b hb (hkey ▸ List.mem_cons_self)
      · rintro ⟨⟨hfresh, hothers⟩, ⟨hkey, hnodup⟩, hown, howns⟩
        refine ⟨⟨hfresh, hown⟩, fun b hb hmem => ?_, hnodup, howns⟩
        rcases List.mem_cons.1 hmem with heq | hmem
        · exact hkey (heq ▸ List.mem_map_of_mem hb)
        · exact hothers b hb hmem

end Distinct

/-! ## The faults of a function -/

namespace PlacedFunction

variable (f : PlacedFunction)

/-- The identifiers of the variables of the function. -/
def variableIds : List Nat := f.function.locals.map VariableDocument.id

def variableTwice (v : VariableDocument) : Failure :=
  .execution (.variableTwice f.file (.ofNat v.id) f.function.name) none

def occurrenceFaults (o : OccurrenceDocument) : List Failure :=
  if o.target ∈ f.variableIds then []
  else [.execution (.variableUnknown f.file (.ofNat o.target) f.function.name) (some f.location)]

def targetFaults (size : Nat) (role : EdgeRole) (index : Nat) : List Failure :=
  if index < size then []
  else [.execution (.nodeUnknown f.file role f.function.name (.ofNat index) size) (some f.location)]

def nodeFaults (size position : Nat) (n : NodeDocument) : List Failure :=
  n.occurrences.flatMap f.occurrenceFaults ++ n.exits.flatMap (f.targetFaults size (.edgeOf position))

def nodesFaults (size : Nat) : Nat → List NodeDocument → List Failure
  | _, [] => []
  | position, n :: ns => f.nodeFaults size position n ++ nodesFaults size (position + 1) ns

def flowFaults (d : FlowDocument) : List Failure :=
  distinctFaults VariableDocument.id f.variableTwice (fun _ => []) [] f.function.locals ++
    (f.nodesFaults d.nodes.length 0 d.nodes ++
      (f.targetFaults d.nodes.length .entry d.entry ++ f.targetFaults d.nodes.length .exit d.exit))

/-- What is wrong with a function apart from its identifier.  Nothing is asked of a function without a body,
not even if a flow is given for it. -/
def ownFaults : List Failure :=
  match f.function.implemented, f.function.flow with
  | false, _ => []
  | true, none => [.execution (.flowMissing f.file f.function.name) (some f.location)]
  | true, some d => f.flowFaults d

def functionTwice : Failure :=
  .execution (.functionTwice f.file (.ofNat f.function.id) f.function.name) (some f.location)

end PlacedFunction

/-- All that is wrong with a program, in the order of the document. -/
def ProgramDocument.faults (d : ProgramDocument) : List Failure :=
  distinctFaults (fun f => f.function.id) PlacedFunction.functionTwice PlacedFunction.ownFaults [] d.functions

/-! ## Acceptable documents -/

/-- A flow document fits the function that it is given for. -/
structure FunctionDocument.Admits (f : FunctionDocument) (d : FlowDocument) : Prop where
  -- No two variables of the function have one identifier.
  nodup_locals : (f.locals.map VariableDocument.id).Nodup
  -- Every occurrence names a variable of the function.
  declared : ∀ n ∈ d.nodes, ∀ o ∈ n.occurrences, o.target ∈ f.locals.map VariableDocument.id
  -- Every edge leads to a node.
  exits_lt : ∀ n ∈ d.nodes, ∀ index ∈ n.exits, index < d.nodes.length
  entry_lt : d.entry < d.nodes.length
  exit_lt : d.exit < d.nodes.length

/-- What a program document has to satisfy beyond its schema. -/
structure ProgramDocument.Acceptable (d : ProgramDocument) : Prop where
  -- No two functions have one identifier, with a body or without, members of contracts or not.
  nodup_ids : (d.functions.map fun f => f.function.id).Nodup
  -- Every function with a body has a flow, and the flow fits it.
  admits : ∀ f ∈ d.functions, f.function.implemented = true →
    ∃ flow, f.function.flow = some flow ∧ f.function.Admits flow

namespace PlacedFunction

variable {f : PlacedFunction} {size position : Nat}

theorem occurrenceFaults_eq_nil_iff {o : OccurrenceDocument} :
    f.occurrenceFaults o = [] ↔ o.target ∈ f.variableIds := by
  unfold occurrenceFaults
  split <;> simp_all

theorem targetFaults_eq_nil_iff {role : EdgeRole} {index : Nat} :
    f.targetFaults size role index = [] ↔ index < size := by
  unfold targetFaults
  split <;> simp_all

theorem nodesFaults_eq_nil_iff {ns : List NodeDocument} :
    f.nodesFaults size position ns = [] ↔
      ∀ n ∈ ns, (∀ o ∈ n.occurrences, o.target ∈ f.variableIds) ∧ ∀ index ∈ n.exits, index < size := by
  induction ns generalizing position with
  | nil => simp [nodesFaults]
  | cons n ns ih =>
      rw [nodesFaults, List.append_eq_nil_iff, ih, nodeFaults, List.append_eq_nil_iff,
        List.flatMap_eq_nil_iff, List.flatMap_eq_nil_iff, List.forall_mem_cons]
      simp only [occurrenceFaults_eq_nil_iff, targetFaults_eq_nil_iff]

theorem flowFaults_eq_nil_iff {d : FlowDocument} : f.flowFaults d = [] ↔ f.function.Admits d := by
  rw [flowFaults, List.append_eq_nil_iff, List.append_eq_nil_iff, List.append_eq_nil_iff,
    distinctFaults_eq_nil_iff, nodesFaults_eq_nil_iff, targetFaults_eq_nil_iff, targetFaults_eq_nil_iff]
  constructor
  · rintro ⟨⟨-, hnodup, -⟩, hnodes, hentry, hexit⟩
    exact ⟨hnodup, fun n hn => (hnodes n hn).1, fun n hn => (hnodes n hn).2, hentry, hexit⟩
  · rintro ⟨hnodup, hdeclared, hexits, hentry, hexit⟩
    exact ⟨⟨by simp, hnodup, by simp⟩, fun n hn => ⟨hdeclared n hn, hexits n hn⟩, hentry, hexit⟩

theorem ownFaults_eq_nil_iff :
    f.ownFaults = [] ↔ (f.function.implemented = true →
      ∃ flow, f.function.flow = some flow ∧ f.function.Admits flow) := by
  unfold ownFaults
  cases f.function.implemented with
  | false => simp
  | true =>
      cases f.function.flow with
      | none => simp
      | some d => simp [flowFaults_eq_nil_iff]

end PlacedFunction

/-- **A document has no faults if and only if it is acceptable.** -/
theorem ProgramDocument.faults_eq_nil_iff {d : ProgramDocument} : d.faults = [] ↔ d.Acceptable := by
  rw [faults, distinctFaults_eq_nil_iff]
  constructor
  · rintro ⟨-, hnodup, hown⟩
    exact ⟨hnodup, fun f hf => PlacedFunction.ownFaults_eq_nil_iff.1 (hown f hf)⟩
  · rintro ⟨hnodup, hadmits⟩
    exact ⟨by simp, hnodup, fun f hf => PlacedFunction.ownFaults_eq_nil_iff.2 (hadmits f hf)⟩

end StorageFlow.Program
