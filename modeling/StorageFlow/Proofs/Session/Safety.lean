/-
# StorageFlow.Proofs.Session.Safety — what was loaded can be analysed.

Several steps of a run may fail with a defect: looking for the functions of a unit, looking for the flow of a
function, applying the transfer function to an unknown kind of touch, and asking for messages that were not
saved.  None of this happens to a unit that was loaded (`Represents.analysable`) in a session that was created,
because the loader has registered exactly the flows of the functions with bodies, and because messages are saved
whenever the output asks for them.

Main statement: `execute_of_create` — units that were loaded can be analysed, and executing a session never
fails.
-/
import StorageFlow.Proofs.Session.Execution

namespace StorageFlow

/-- The keys of a table are those that have values. -/
theorem Table.mem_keys_iff {κ ν : Type} [DecidableEq κ] {t : Table κ ν} {k : κ} :
    k ∈ t.keys ↔ ∃ v, t.get? k = some v := by
  obtain ⟨entries, hnodup⟩ := t
  show k ∈ entries.map Prod.fst ↔ ∃ v, find? k entries = some v
  clear hnodup
  induction entries with
  | nil => simp [find?]
  | cons e entries ih =>
      obtain ⟨k', v'⟩ := e
      rw [List.map_cons, List.mem_cons, find?, ih]
      by_cases h : k' = k
      · simp [h]
      · simp [h, Ne.symm h]

namespace Program

variable {cu : CompilationUnit} {d : ProgramDocument}

/-! ## Units that can be analysed -/

/-- A unit can be analysed: every function with a body has a flow of its own, which is the one that the document
gives for it, there are no other flows, and no pass fails. -/
structure CompilationUnit.Analysable (cu : CompilationUnit) (d : ProgramDocument) : Prop where
  functions : ∃ functions, cu.functions = .ok functions ∧ functions.length = cu.flows.size ∧
    (functions.map FunctionDefinition.id).Nodup ∧
    List.Forall₂ (fun f body => f = body.definition ∧ ∃ flow, cu.flowOf f = .ok flow ∧
      flow.functionId = f.id ∧ body.HasFlow flow ∧ ∀ order, ∃ r, Analysis.run flow order = .ok r)
      functions d.bodies
  passes : ∀ order name pass, Pass.builtIn? order name = some pass → ∀ policy trail,
    ∃ success after, pass.analyze policy cu trail = (.ok success, after)

theorem ProgramDocument.Acceptable.nodup_bodies (h : d.Acceptable) :
    (d.bodies.map fun f => Number.ofNat f.function.id).Nodup := by
  have hsublist : (d.bodies.map fun f => f.function.id).Sublist (d.functions.map fun f => f.function.id) :=
    List.filter_sublist.map _
  have hnodup := (h.nodup_ids.sublist hsublist).map Number.ofNat_injective
  rwa [List.map_map] at hnodup

/-- There are as many flows as functions with bodies. -/
theorem CompilationUnit.Represents.size_flows (h : cu.Represents d) (hd : d.Acceptable) :
    cu.flows.size = d.bodies.length := by
  have hkeys (key : Number) :
      key ∈ cu.flows.flows.keys ↔ key ∈ d.bodies.map fun f => Number.ofNat f.function.id := by
    simp only [Table.mem_keys_iff, h.get?_flows_iff, List.mem_map, ProgramDocument.bodies, List.mem_filter]
    constructor
    · rintro ⟨flow, f, hf, rfl, hflow⟩
      exact ⟨f, ⟨hf, hflow.1⟩, rfl⟩
    · rintro ⟨f, ⟨hf, hbody⟩, rfl⟩
      obtain ⟨flow, hflow⟩ := hd.exists_hasFlow hf hbody
      exact ⟨flow, f, hf, rfl, hflow⟩
  have hperm : cu.flows.flows.keys.Perm (d.bodies.map fun f => Number.ofNat f.function.id) :=
    (List.perm_ext_iff_of_nodup cu.flows.flows.nodup hd.nodup_bodies).2 hkeys
  have hlength := hperm.length_eq
  rw [List.length_map] at hlength
  rw [← hlength, Table.keys, List.length_map]
  rfl

/-- **A unit that was loaded can be analysed.** -/
theorem CompilationUnit.Represents.analysable (h : cu.Represents d) (hd : d.Acceptable) :
    cu.Analysable d := by
  constructor
  · refine ⟨_, h.functions_eq, ?_, ?_, ?_⟩
    · rw [List.length_map, h.size_flows hd]
    · rw [List.map_map]
      exact hd.nodup_bodies
    · rw [List.forall₂_map_left_iff, List.forall₂_same]
      intro body hbody
      obtain ⟨hmem, himplemented⟩ := List.mem_filter.1 hbody
      obtain ⟨flow, hflow⟩ := hd.exists_hasFlow hmem himplemented
      refine ⟨rfl, flow, h.flowOf_eq hmem hflow, hflow.builtFor.functionId_eq, hflow, fun order => ?_⟩
      obtain ⟨accesses, other, r, hother, hrun, -⟩ := hflow.exists_reports order
      obtain rfl : flow = other := hflow.unique hother
      exact ⟨r, hrun⟩
  · intro order name pass hpass policy trail
    have hname : name ∈ builtInPassNames := by
      rw [← Pass.isSome_builtIn?_iff order, hpass]
      rfl
    have hbuiltIn : pass = Pass.UninitializedAccess.pass order := by
      rw [Pass.builtIn?, if_pos (Pass.eq_of_mem_builtInPassNames hname)] at hpass
      exact (Option.some.inj hpass).symm
    have haccept : ∀ e ∈ [d], e.Acceptable := by
      intro e he
      rw [List.mem_singleton.1 he]
      exact hd
    obtain ⟨accesses, haccesses⟩ := exists_accesses order haccept
    obtain ⟨after, hanalyze, -⟩ := Session.pass_analyze_answers policy hname h
      (haccesses d List.mem_cons_self) trail
    rw [hbuiltIn]
    exact ⟨_, after, hanalyze⟩

end Program

open Program

namespace Session

/-! ## Runs that do not fail -/

variable {s : Session} {settings : Settings} {programs : List ProgramDocument}

/-- A session about acceptable programs comes to a verdict that is not an error. -/
theorem IsAbout.exists_verdict_answers (h : s.IsAbout settings programs)
    (hnames : ∀ name ∈ settings.passes, name ∈ builtInPassNames) (haccept : ∀ d ∈ programs, d.Acceptable) :
    ∃ answer ds, Action.Answers answer s.verdict ds ∧ ∀ sink message, answer sink ≠ .error message := by
  cases hlists : s.listsPasses with
  | true => exact ⟨_, [], verdict_answers_of_lists hlists, fun sink message => by simp⟩
  | false =>
      by_cases hpasses : settings.passes = []
      · have hnone : s.passes = [] := by
          rw [h.passes_eq, hpasses]
          rfl
        exact ⟨_, [], verdict_answers_of_no_passes hlists hnone, fun sink message => by simp⟩
      · obtain ⟨accesses, haccesses⟩ := exists_accesses settings.worklistOrder haccept
        obtain ⟨success, -, hanswers⟩ := h.verdict_answers hlists hpasses hnames haccesses
        refine ⟨_, _, hanswers, fun sink message => ?_⟩
        unfold Verdict.telling
        split <;> simp

/-- **What was loaded can be analysed.**  A unit that was loaded from a document or from a file has a flow of its
own for every function with a body, and no others, and no pass fails on it.  A session that was created with
built-in passes only can be executed at any time: it comes to a verdict that is not an error, and hands out the
messages if the output asks for them. -/
theorem execute_of_create :
    (∀ j projectName origin trail cu, (loadJson j projectName origin trail).1 = .ok cu →
      ∃ d, (program (some j)).toExcept = .ok d ∧ cu.Analysable d) ∧
    (∀ fs path trail cu, (loadFile fs path trail).1 = .ok cu →
      ∃ d, IsProgramAt fs path d ∧ cu.Analysable d) ∧
    ∀ env paths options sink session created, create env paths options sink = (.ok session, created) →
      (∀ name ∈ session.settings.passes, name ∈ builtInPassNames) →
      ∀ before : Trail, before.journal.saves = created.journal.saves →
        ∃ outcome after, session.execute before = (.ok outcome, after) ∧
          ∀ message, outcome.verdict ≠ .error message := by
  refine ⟨fun j projectName origin trail cu h => ?_, fun fs path trail cu h => ?_, ?_⟩
  · obtain ⟨d, hread, haccept, hrepresents⟩ := represents_of_loadJson h
    exact ⟨d, hread, hrepresents.analysable haccept⟩
  · obtain ⟨d, hd, haccept, hrepresents⟩ := represents_of_loadFile h
    exact ⟨d, hd, hrepresents.analysable haccept⟩
  · intro env paths options sink session created hcreate hnames before hsaves
    obtain ⟨setup, -, hstarted, hfiles, -, hcreated⟩ := startedFrom_of_create hcreate
    obtain ⟨programs, habout, -, haccept⟩ := hstarted.exists_isAbout hfiles hnames
    obtain ⟨answer, ds, hverdict, hanswer⟩ := habout.exists_verdict_answers hnames haccept
    obtain ⟨logs, after, hexecute, -⟩ := execute_answers hverdict (hsaves.trans hcreated)
    exact ⟨_, after, hexecute, hanswer before.sink⟩

/-- The options of a run whose output is a document. -/
def documentOptions : Options := { Options.none with outputFormat := some .json }

/-- A program file is loaded, analysed, and executed in a session whose output is a document. -/
theorem ledger_execute_of_create :
    let env : Environment := ⟨ledgerFiles, ⟨0, 0, 0, 0⟩, false⟩
    ∃ j cu session created,
      (loadJson j "ledger" "ledger.json" ⟨noJournal, .empty⟩).1 = .ok cu ∧
      (∃ d, (program (some j)).toExcept = .ok d ∧ cu.Analysable d) ∧
      (∃ cu, (loadFile ledgerFiles ledgerPath ⟨noJournal, .empty⟩).1 = .ok cu ∧
        ∃ d, IsProgramAt ledgerFiles ledgerPath d ∧ cu.Analysable d) ∧
      create env [ledgerPath] documentOptions .empty = (.ok session, created) ∧
      ∃ outcome after, session.execute created = (.ok outcome, after) ∧
        ∀ message, outcome.verdict ≠ .error message := by
  intro env
  obtain ⟨hjson, hfile, hexecute⟩ := execute_of_create
  have haccept : ledgerProgram.Acceptable := ProgramDocument.faults_eq_nil_iff.1 rfl
  obtain ⟨j, -, hread⟩ := isProgramAt_ledger
  have hfaults : jsonFaults "ledger.json" j = [] := by
    rw [jsonFaults, hread]
    rfl
  obtain ⟨cu, hcu⟩ := (loadJson_checks j "ledger" "ledger.json" ⟨noJournal, .empty⟩).1.isOk_iff.2 hfaults
  obtain ⟨cu', hcu'⟩ := isProgramAt_ledger.exists_loadFile haccept ⟨noJournal, .empty⟩
  have hcreated : ((create env [ledgerPath] documentOptions .empty).1.toOption.map
      fun s => s.settings.passes) = some builtInPassNames := by decide +kernel
  obtain ⟨session, created, hcreate, hnames⟩ := exists_create_eq hcreated
  refine ⟨j, cu, session, created, hcu, hjson j _ _ _ cu hcu, ⟨cu', hcu', hfile _ _ _ cu' hcu'⟩, hcreate, ?_⟩
  exact hexecute env _ _ _ session created hcreate (fun name hname => hnames ▸ hname) created rfl

end Session

end StorageFlow
