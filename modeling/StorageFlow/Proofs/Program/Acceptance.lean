/-
# StorageFlow.Proofs.Program.Acceptance — the loader accepts the documents that it should.

The checks of the loader are spread over several places.  Identifiers of functions are looked up in a set,
those of variables in a table; edges, the entry and the exit are compared with the number of nodes; and then
builder, flow and registry check once more what they are given.  Each function of the loader has one lemma
here, which says that it `Decides` the faults that it is responsible for; the builder and the registry never
find anything, because what they are given is ready (`Builder.Ready`) and registered for the first time
(`Progress.Holds`).

Main statement: `loadJson_checks` — for every document and whatever happened before, loading fails with the
first fault of the document, which is always a mistake of the user and never a defect.
-/
import StorageFlow.Proofs.Action.Effects
import StorageFlow.Proofs.Flow.Building
import StorageFlow.Proofs.Program.Faults

namespace StorageFlow.Program

/-! ## Flows -/

namespace PlacedFunction

variable {f : PlacedFunction} {known : Table Nat Variable} {b : Flow.Builder} {functionId : Number}
  {size i : Nat}

/-- A table has values for some identifiers and for no others. -/
def Covers (known : Table Nat Variable) (ids : List Nat) : Prop :=
  ∀ id, known.contains id = true ↔ id ∈ ids

theorem covers_empty : Covers Table.empty [] := by
  intro id
  simp [Table.contains]

theorem covers_set {ids : List Nat} (h : Covers known ids) (k : Nat) (v : Variable) :
    Covers (known.set k v) (k :: ids) := by
  intro id
  rw [Table.contains, Table.get?_set, List.mem_cons, ← h id]
  by_cases e : k = id
  · simp [e]
  · rw [if_neg e]
    exact (or_iff_right (Ne.symm e)).symm

theorem localsFrom_decides {slot : Nat} {earlier : List Nat} {vs : List VariableDocument}
    (h : Covers known earlier) :
    Decides (fun table => Covers table (earlier ++ vs.map VariableDocument.id)) (f.localsFrom slot known vs)
      (distinctFaults VariableDocument.id f.variableTwice (fun _ => []) earlier vs) := by
  induction vs generalizing slot known earlier with
  | nil =>
      refine .ok ?_
      rw [List.map_nil, List.append_nil]
      exact h
  | cons v vs ih =>
      rw [localsFrom, distinctFaults]
      by_cases htaken : v.id ∈ earlier
      · rw [if_pos ((h v.id).2 htaken), if_neg (not_not.2 htaken)]
        exact .error
      · rw [if_neg (mt (h v.id).1 htaken), if_pos htaken, List.nil_append, List.nil_append]
        refine (ih (covers_set h v.id (f.variableAt slot v))).imp fun table htable id => ?_
        rw [htable id, List.map_cons]
        simp only [List.mem_append, List.mem_cons]
        tauto

theorem lookUp_decides {o : OccurrenceDocument} (h : Covers known f.variableIds) :
    Decides (fun _ => True) (f.lookUp known o.target) (f.occurrenceFaults o) := by
  have hcovers := h o.target
  rw [Table.contains] at hcovers
  rw [lookUp, occurrenceFaults]
  cases hget : known.get? o.target with
  | none =>
      rw [hget] at hcovers
      rw [if_neg (mt hcovers.2 (by simp))]
      exact .error
  | some v =>
      rw [hget] at hcovers
      rw [if_pos (hcovers.1 rfl)]
      exact .ok trivial

theorem exists_recordTouch (h : b.Ready functionId size) (hi : i < size) (o : OccurrenceDocument)
    (v : Variable) : ∃ b', f.recordTouch b i o v = .ok b' ∧ b'.Ready functionId size := by
  unfold recordTouch
  cases o.touch with
  | declaration => exact h.exists_record hi .declaration v _
  | assignment => exact h.exists_record hi .assignment v _
  | inlineReference => exact h.exists_record hi .inlineReference v _
  | access => exact h.exists_record hi .access v _

theorem recordAll_decides {os : List OccurrenceDocument} (hknown : Covers known f.variableIds)
    (h : b.Ready functionId size) (hi : i < size) :
    Decides (fun b' => b'.Ready functionId size) (f.recordAll known i b os)
      (os.flatMap f.occurrenceFaults) := by
  induction os generalizing b with
  | nil => exact .ok h
  | cons o os ih =>
      rw [recordAll, List.flatMap_cons]
      refine (lookUp_decides hknown).bind fun v _ => ?_
      obtain ⟨b', hb', hready⟩ := exists_recordTouch h hi o v
      rw [hb']
      exact ih hready

theorem target_decides (f : PlacedFunction) (size : Nat) (role : EdgeRole) (index : Nat) :
    Decides (fun t => index < size ∧ t = .ofNat index) (f.target size role index)
      (f.targetFaults size role index) := by
  unfold target targetFaults
  exact decides_ite fun hindex => ⟨hindex, rfl⟩

theorem addEdges_decides {indices : List Nat} (h : b.Ready functionId size) (hi : i < size) :
    Decides (fun b' => b'.Ready functionId size) (f.addEdges size i b indices)
      (indices.flatMap (f.targetFaults size (.edgeOf i))) := by
  induction indices generalizing b with
  | nil => exact .ok h
  | cons index indices ih =>
      rw [addEdges, List.flatMap_cons]
      refine (target_decides f size (.edgeOf i) index).bind fun t ht => ?_
      obtain ⟨b', hb', hready⟩ := h.exists_addEdge hi ht.1
      rw [ht.2, hb']
      exact ih hready

theorem fillFrom_decides {position : Nat} {ns : List NodeDocument}
    (hknown : Covers known f.variableIds) (h : b.Ready functionId size)
    (hsize : position + ns.length ≤ size) :
    Decides (fun b' => b'.Ready functionId size) (f.fillFrom known size position b ns)
      (f.nodesFaults size position ns) := by
  induction ns generalizing position b with
  | nil => exact .ok h
  | cons n ns ih =>
      rw [List.length_cons] at hsize
      have hposition : position < size := by omega
      rw [fillFrom, nodesFaults, nodeFaults, List.append_assoc]
      refine (recordAll_decides hknown h hposition).bind fun b₁ h₁ => ?_
      refine (addEdges_decides h₁ hposition).bind fun b₂ h₂ => ?_
      exact ih h₂ (by omega)

/-- **A flow is converted unless something is wrong with it.** -/
theorem convertFlow_decides (f : PlacedFunction) (d : FlowDocument) :
    Decides (fun flow => flow.BuiltFor (.ofNat f.function.id)) (f.convertFlow d) (f.flowFaults d) := by
  unfold convertFlow flowFaults
  refine (localsFrom_decides covers_empty).bind fun known hknown => ?_
  have hids : Covers known f.variableIds := hknown
  have hopen : (f.openFlow d).Ready (.ofNat f.function.id) d.nodes.length :=
    Flow.Builder.ready_foldl_addNode _ _ _
  refine (fillFrom_decides hids hopen (by omega)).bind fun b hb => ?_
  refine (target_decides f d.nodes.length .entry d.entry).bind fun entry hentry => ?_
  refine (target_decides f d.nodes.length .exit d.exit).bind_of_exists fun exit hexit => ?_
  rw [hentry.2, hexit.2]
  obtain ⟨flow, hflow, hbecomes⟩ := hb.exists_becomes hentry.1 hexit.1
  exact ⟨flow, hflow, hb.builtFor hbecomes⟩

/-! ## Functions -/

/-- The function has a body, and this flow is that of the function. -/
def HasFlow (f : PlacedFunction) (flow : Flow) : Prop :=
  f.function.implemented = true ∧ ∃ d, f.function.flow = some d ∧ f.convertFlow d = .ok flow

theorem HasFlow.builtFor {flow : Flow} (h : f.HasFlow flow) : flow.BuiltFor (.ofNat f.function.id) := by
  obtain ⟨-, d, -, hconvert⟩ := h
  have hdecides := convertFlow_decides f d
  rw [hconvert] at hdecides
  exact hdecides.of_ok

theorem HasFlow.unique {flow other : Flow} (h : f.HasFlow flow) (hother : f.HasFlow other) : flow = other := by
  obtain ⟨-, d, hd, hconvert⟩ := h
  obtain ⟨-, d', hd', hconvert'⟩ := hother
  obtain rfl : d = d' := Option.some.inj (hd.symm.trans hd')
  exact Except.ok.inj (hconvert.symm.trans hconvert')

/-- What becomes of the function agrees with whether it has a body. -/
def Becomes (f : PlacedFunction) : FunctionOutcome → Prop
  | .analysable flow => f.HasFlow flow
  | .bodiless | .flowIgnored => f.function.implemented = false

theorem load_decides {known : FiniteSet Nat} {earlier : List Nat} (h : ∀ id, id ∈ known ↔ id ∈ earlier) :
    Decides (fun outcome => f.function.id ∉ earlier ∧ f.Becomes outcome) (f.load known)
      ((if f.function.id ∉ earlier then [] else [f.functionTwice]) ++ f.ownFaults) := by
  rw [load]
  by_cases htaken : f.function.id ∈ earlier
  · rw [if_pos ((h _).2 htaken), if_neg (not_not.2 htaken)]
    exact .error
  · rw [if_neg (mt (h _).1 htaken), if_pos htaken, List.nil_append, ownFaults]
    cases himplemented : f.function.implemented with
    | false =>
        cases f.function.flow with
        | none => exact .ok ⟨htaken, himplemented⟩
        | some d => exact .ok ⟨htaken, himplemented⟩
    | true =>
        cases hflow : f.function.flow with
        | none => exact .error
        | some d =>
            refine (convertFlow_decides f d).and_eq.bind_of_exists fun flow hconvert => ?_
            exact ⟨.analysable flow, rfl, htaken, himplemented, d, hflow, hconvert.2⟩

end PlacedFunction

/-- Every function with a body has a flow, if the program is acceptable. -/
theorem ProgramDocument.Acceptable.exists_hasFlow {d : ProgramDocument} {f : PlacedFunction} (h : d.Acceptable)
    (hf : f ∈ d.functions) (hbody : f.function.implemented = true) : ∃ flow, f.HasFlow flow := by
  obtain ⟨given, hgiven, hadmits⟩ := h.admits f hf hbody
  obtain ⟨flow, hconvert⟩ := (f.convertFlow_decides given).isOk_iff.2
    (PlacedFunction.flowFaults_eq_nil_iff.2 hadmits)
  exact ⟨flow, hbody, given, hgiven, hconvert⟩

/-! ## Programs -/

/-- What is known of the functions that have been loaded is right. -/
structure Progress.Holds (p : Progress) (earlier : List PlacedFunction) : Prop where
  mem_known_iff (id : Nat) : id ∈ p.known ↔ id ∈ earlier.map fun f => f.function.id
  -- Every function with a body is registered with its own flow, and nothing else is registered.
  get?_flows_iff (key : Number) (flow : Flow) :
    p.flows.flows.get? key = some flow ↔ ∃ f ∈ earlier, key = .ofNat f.function.id ∧ f.HasFlow flow

theorem Progress.holds_start : Progress.start.Holds [] := by
  constructor
  · intro id
    simp [start]
  · intro key flow
    simp [start, Flow.Registry.empty]

theorem Progress.Holds.mem_insert_known_iff {p : Progress} {earlier : List PlacedFunction}
    (h : p.Holds earlier) (f : PlacedFunction) (id : Nat) :
    id ∈ p.known.insert f.function.id ↔ id ∈ (f :: earlier).map fun f => f.function.id := by
  rw [FiniteSet.mem_insert, h.mem_known_iff, List.map_cons, List.mem_cons, or_comm]

/-- The registry never finds a second flow: an identifier that was not known is not registered. -/
theorem Progress.Holds.exists_register {p : Progress} {earlier : List PlacedFunction} (h : p.Holds earlier)
    {f : PlacedFunction} (hfresh : f.function.id ∉ earlier.map fun f => f.function.id) {flow : Flow}
    (hid : flow.functionId = .ofNat f.function.id) :
    p.flows.register flow = .ok ⟨p.flows.flows.set (.ofNat f.function.id) flow⟩ := by
  have hnone : p.flows.flows.contains flow.functionId = false := by
    rw [Table.contains, ← Bool.not_eq_true, Option.isSome_iff_exists, not_exists]
    intro other hother
    obtain ⟨g, hg, hkey, -⟩ := (h.get?_flows_iff _ _).1 hother
    apply hfresh
    rw [Number.ofNat_injective (hid.symm.trans hkey)]
    exact List.mem_map_of_mem hg
  rw [Flow.Registry.register, hnone, ← hid]
  rfl

/-- A function without a body only becomes known. -/
theorem Progress.Holds.bodiless {p : Progress} {earlier : List PlacedFunction} (h : p.Holds earlier)
    {f : PlacedFunction} (himplemented : f.function.implemented = false) :
    Progress.Holds ⟨p.known.insert f.function.id, p.flows⟩ (f :: earlier) := by
  refine ⟨h.mem_insert_known_iff f, fun key flow => ?_⟩
  rw [h.get?_flows_iff, List.exists_mem_cons_iff]
  refine (or_iff_right ?_).symm
  rintro ⟨-, hbody, -⟩
  rw [himplemented] at hbody
  exact absurd hbody (by simp)

/-- A function with a body becomes known and is registered. -/
theorem Progress.Holds.analysable {p : Progress} {earlier : List PlacedFunction} (h : p.Holds earlier)
    {f : PlacedFunction} (hfresh : f.function.id ∉ earlier.map fun f => f.function.id) {flow : Flow}
    (hflow : f.HasFlow flow) :
    Progress.Holds ⟨p.known.insert f.function.id, ⟨p.flows.flows.set (.ofNat f.function.id) flow⟩⟩
      (f :: earlier) := by
  refine ⟨h.mem_insert_known_iff f, fun key other => ?_⟩
  show (p.flows.flows.set (.ofNat f.function.id) flow).get? key = some other ↔ _
  rw [Table.get?_set, List.exists_mem_cons_iff]
  by_cases hkey : Number.ofNat f.function.id = key
  · subst hkey
    rw [if_pos rfl]
    constructor
    · intro hother
      exact .inl ⟨rfl, Option.some.inj hother ▸ hflow⟩
    · rintro (⟨-, hother⟩ | ⟨g, hg, hkey, -⟩)
      · exact congrArg some (hflow.unique hother)
      · exact absurd (Number.ofNat_injective hkey ▸ List.mem_map_of_mem hg) hfresh
  · rw [if_neg hkey, h.get?_flows_iff]
    exact (or_iff_right fun hhere => hkey hhere.1.symm).symm

theorem Progress.Holds.exists_add {p : Progress} {earlier : List PlacedFunction} (h : p.Holds earlier)
    {f : PlacedFunction} (hfresh : f.function.id ∉ earlier.map fun f => f.function.id)
    {outcome : FunctionOutcome} (hbecomes : f.Becomes outcome) :
    ∃ p', p.add f outcome = .ok p' ∧ p'.Holds (f :: earlier) := by
  cases outcome with
  | bodiless => exact ⟨_, rfl, h.bodiless hbecomes⟩
  | flowIgnored => exact ⟨_, rfl, h.bodiless hbecomes⟩
  | analysable flow =>
      have hflow : f.HasFlow flow := hbecomes
      refine ⟨_, ?_, h.analysable hfresh hflow⟩
      rw [Progress.add, h.exists_register hfresh hflow.builtFor.functionId_eq]
      rfl

theorem loadFunction_checks {p : Progress} {earlier : List PlacedFunction} (h : p.Holds earlier)
    (f : PlacedFunction) :
    Action.Checks (fun p' => p'.Holds (f :: earlier)) (loadFunction p f)
      ((if f.function.id ∉ earlier.map fun f => f.function.id then [] else [f.functionTwice]) ++
        f.ownFaults) := by
  rw [← List.append_nil (_ ++ f.ownFaults)]
  refine (Action.checks_ofExcept (f.load_decides h.mem_known_iff)).bind fun outcome hload => ?_
  obtain ⟨hfresh, hbecomes⟩ := hload
  obtain ⟨p', hadd, hholds⟩ := h.exists_add hfresh hbecomes
  have hlast : Action.Checks (fun p' => p'.Holds (f :: earlier)) (Action.ofExcept (p.add f outcome)) [] := by
    rw [hadd]
    exact Action.checks_ofExcept (.ok hholds)
  cases outcome with
  | bodiless => exact hlast
  | flowIgnored => exact (Action.checks_log _ _).bind fun _ _ => hlast
  | analysable flow => exact hlast

theorem loadFunctions_checks {p : Progress} {earlier : List PlacedFunction} (h : p.Holds earlier)
    (fs : List PlacedFunction) :
    Action.Checks (fun p' => p'.Holds (fs.reverse ++ earlier)) (loadFunctions p fs)
      (distinctFaults (fun f => f.function.id) PlacedFunction.functionTwice PlacedFunction.ownFaults
        (earlier.map fun f => f.function.id) fs) := by
  induction fs generalizing p earlier with
  | nil => exact Action.checks_pure (P := fun p' : Progress => p'.Holds earlier) h
  | cons f fs ih =>
      rw [loadFunctions, distinctFaults, List.reverse_cons, List.append_assoc, List.singleton_append]
      exact (loadFunction_checks h f).bind fun p' hp' => ih hp'

/-- A compilation unit has the declarations of a program document, and for each function with a body the flow
that the document gives for it. -/
structure CompilationUnit.Represents (cu : CompilationUnit) (d : ProgramDocument) : Prop where
  sources_eq : cu.sources = d.sources.map SourceDocument.toSourceUnit
  get?_flows_iff (key : Number) (flow : Flow) :
    cu.flows.flows.get? key = some flow ↔ ∃ f ∈ d.functions, key = .ofNat f.function.id ∧ f.HasFlow flow

/-- **A program is loaded unless something is wrong with it.** -/
theorem loadDocument_checks (projectName : Text) (d : ProgramDocument) :
    Action.Checks (fun cu => CompilationUnit.Represents cu d) (loadDocument projectName d) d.faults := by
  rw [← List.append_nil d.faults]
  refine (loadFunctions_checks Progress.holds_start d.functions).bind fun p hp => ?_
  refine (Action.checks_log _ _).bind fun _ _ => Action.checks_pure ⟨rfl, fun key flow => ?_⟩
  rw [hp.get?_flows_iff, List.append_nil]
  simp only [List.mem_reverse]

/-! ## Documents -/

/-- All that is wrong with a document: that it does not match the schema, or else the faults of the program
that it describes. -/
def jsonFaults (origin : Text) (j : Json) : List Failure :=
  match (program (some j)).toExcept with
  | .ok d => d.faults
  | .error issues => [.execution (.mismatch (heading origin) issues "") none]

theorem loadJson_checks (j : Json) (projectName origin : Text) :
    Action.Checks (fun cu => ∃ d, (program (some j)).toExcept = .ok d ∧ CompilationUnit.Represents cu d)
      (loadJson j projectName origin) (jsonFaults origin j) := by
  unfold loadJson jsonFaults
  cases hread : (program (some j)).toExcept with
  | error issues => exact fun trail => ⟨.error, trail.continues_refl⟩
  | ok d =>
      refine Action.Checks.bind (P := fun read => read = d) (Action.checks_ofExcept (.ok rfl)) ?_
      intro read hread
      rw [hread]
      exact (loadDocument_checks projectName d).imp fun cu hcu => ⟨d, rfl, hcu⟩

/-- What was loaded represents an acceptable program. -/
theorem represents_of_loadJson {j : Json} {projectName origin : Text} {trail : Trail} {cu : CompilationUnit}
    (h : (loadJson j projectName origin trail).1 = .ok cu) :
    ∃ d, (program (some j)).toExcept = .ok d ∧ d.Acceptable ∧ cu.Represents d := by
  have hdecides := (loadJson_checks j projectName origin trail).1
  have hfaults : jsonFaults origin j = [] := hdecides.isOk_iff.1 ⟨cu, h⟩
  rw [h] at hdecides
  obtain ⟨d, hread, hrepresents⟩ := hdecides.of_ok
  rw [jsonFaults, hread] at hfaults
  exact ⟨d, hread, ProgramDocument.faults_eq_nil_iff.1 hfaults, hrepresents⟩

/-! ## Only mistakes -/

/-- A failure that the user can mend. -/
def IsMistake (failure : Failure) : Prop := ∃ cause location, failure = .execution cause location

theorem isMistake_of_mem_distinctFaults {α : Type} {key : α → Nat} {taken : α → Failure}
    {own : α → List Failure} (htaken : ∀ a, IsMistake (taken a))
    (hown : ∀ a, ∀ failure ∈ own a, IsMistake failure) {earlier : List Nat} {as : List α} :
    ∀ failure ∈ distinctFaults key taken own earlier as, IsMistake failure := by
  induction as generalizing earlier with
  | nil => exact fun failure hfailure => absurd hfailure List.not_mem_nil
  | cons a as ih =>
      intro failure hfailure
      rw [distinctFaults, List.mem_append, List.mem_append] at hfailure
      rcases hfailure with (hfailure | hfailure) | hfailure
      · split at hfailure
        · exact absurd hfailure List.not_mem_nil
        · rw [List.mem_singleton.1 hfailure]
          exact htaken a
      · exact hown a failure hfailure
      · exact ih failure hfailure

namespace PlacedFunction

variable {f : PlacedFunction} {failure : Failure}

theorem isMistake_of_mem_targetFaults {size : Nat} {role : EdgeRole} {index : Nat}
    (h : failure ∈ f.targetFaults size role index) : IsMistake failure := by
  unfold targetFaults at h
  split at h
  · exact absurd h List.not_mem_nil
  · rw [List.mem_singleton.1 h]
    exact ⟨_, _, rfl⟩

theorem isMistake_of_mem_nodesFaults {size position : Nat} {ns : List NodeDocument}
    (h : failure ∈ f.nodesFaults size position ns) : IsMistake failure := by
  induction ns generalizing position with
  | nil => exact absurd h List.not_mem_nil
  | cons n ns ih =>
      rw [nodesFaults, nodeFaults, List.mem_append, List.mem_append] at h
      rcases h with (h | h) | h
      · obtain ⟨o, -, h⟩ := List.mem_flatMap.1 h
        unfold occurrenceFaults at h
        split at h
        · exact absurd h List.not_mem_nil
        · rw [List.mem_singleton.1 h]
          exact ⟨_, _, rfl⟩
      · obtain ⟨index, -, h⟩ := List.mem_flatMap.1 h
        exact isMistake_of_mem_targetFaults h
      · exact ih h

theorem isMistake_of_mem_ownFaults (h : failure ∈ f.ownFaults) : IsMistake failure := by
  unfold ownFaults at h
  split at h
  · exact absurd h List.not_mem_nil
  · rw [List.mem_singleton.1 h]
    exact ⟨_, _, rfl⟩
  · rw [flowFaults, List.mem_append, List.mem_append, List.mem_append] at h
    rcases h with h | h | h | h
    · refine isMistake_of_mem_distinctFaults ?_ ?_ failure h
      · intro v
        exact ⟨_, _, rfl⟩
      · intro v failure h
        exact absurd h List.not_mem_nil
    · exact isMistake_of_mem_nodesFaults h
    · exact isMistake_of_mem_targetFaults h
    · exact isMistake_of_mem_targetFaults h

end PlacedFunction

/-- Whatever is wrong with a document, it is a mistake and not a defect. -/
theorem isMistake_of_mem_jsonFaults {origin : Text} {j : Json} {failure : Failure}
    (h : failure ∈ jsonFaults origin j) : IsMistake failure := by
  unfold jsonFaults at h
  split at h
  · refine isMistake_of_mem_distinctFaults ?_ ?_ failure h
    · intro f
      exact ⟨_, _, rfl⟩
    · intro f failure h
      exact PlacedFunction.isMistake_of_mem_ownFaults h
  · rw [List.mem_singleton.1 h]
    exact ⟨_, _, rfl⟩

/-- **Loading accepts what it should.**  A document that matches the schema is loaded if and only if it is
acceptable, and otherwise fails with its first fault; a document that does not match the schema is a mismatch.
Loading never fails with anything but a mistake of the user. -/
theorem loadJson_accepts (j : Json) (projectName origin : Text) (trail : Trail) :
    (∀ d, (program (some j)).toExcept = .ok d →
      ((∃ cu, (loadJson j projectName origin trail).1 = .ok cu) ↔ d.Acceptable) ∧
      ∀ failure, (loadJson j projectName origin trail).1 = .error failure ↔
        d.faults.head? = some failure) ∧
    (∀ issues, (program (some j)).toExcept = .error issues →
      (loadJson j projectName origin trail).1 =
        .error (.execution (.mismatch (heading origin) issues "") none)) ∧
    ∀ failure, (loadJson j projectName origin trail).1 = .error failure →
      ∃ cause location, failure = .execution cause location := by
  have hdecides := (loadJson_checks j projectName origin trail).1
  refine ⟨fun d hread => ?_, fun issues hread => ?_, fun failure hfailure => ?_⟩
  · have hfaults : jsonFaults origin j = d.faults := by rw [jsonFaults, hread]
    rw [hfaults] at hdecides
    refine ⟨?_, fun failure => hdecides.error_iff⟩
    rw [hdecides.isOk_iff, ProgramDocument.faults_eq_nil_iff]
  · rw [hdecides.error_iff, jsonFaults, hread]
    rfl
  · exact isMistake_of_mem_jsonFaults (List.mem_of_head? (hdecides.error_iff.1 hfailure))

/-- A program whose two source files declare functions with one identifier, neither of which has a body. -/
def twiceDocument : Json :=
  let span : Json := .object [("start", .ofNat 0), ("end", .ofNat 9)]
  let function : Json := .object [("kind", .string "function"), ("id", .ofNat 1), ("name", .string "f"),
    ("implemented", .bool false), ("loc", span)]
  .object [("sources", .array [
    .object [("path", .string "a.sol"), ("nodes", .array [function])],
    .object [("path", .string "b.sol"), ("nodes", .array [function])]])]

/-- The function of one of the source files. -/
def twiceFunction : FunctionDocument := ⟨1, "f", false, ⟨0, 9, by decide⟩, [], none⟩

/-- The document matches the schema, and is rejected where the identifier comes up again. -/
theorem twiceDocument_rejected :
    ∃ d, (program (some twiceDocument)).toExcept = .ok d ∧ ¬ d.Acceptable ∧
      (loadJson twiceDocument "twice" "twice.json" ⟨.start .silent false none, .empty⟩).1 =
        .error (.execution (.functionTwice "b.sol" (.ofNat 1) "f")
          (some ⟨some "b.sol", .ofNat 0, .ofNat 9⟩)) := by
  have hread : (program (some twiceDocument)).toExcept =
      .ok ⟨none, [⟨"a.sol", none, [.function twiceFunction]⟩, ⟨"b.sol", none, [.function twiceFunction]⟩]⟩ := by
    decide +kernel
  obtain ⟨hok, herror⟩ := (loadJson_accepts twiceDocument "twice" "twice.json"
    ⟨.start .silent false none, .empty⟩).1 _ hread
  refine ⟨_, hread, fun haccept => ?_, (herror _).2 rfl⟩
  exact absurd haccept.nodup_ids (by decide)

end StorageFlow.Program
