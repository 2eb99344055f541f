/-
# StorageFlow.Proofs.Session.Repetition — programs that are named again.

A path that is repeated counts once, but what is compared are the paths as they are written; only when a file is
read it is asked where they lead.  So naming a path again changes nothing, while another spelling of it is another
program to the run, which is loaded and analysed on its own.  Its findings are told once more then, where the
spelling stands in the list.  The judgement stays, as the findings are nothing new to it
(`accepts_eq_of_nil_iff`).

Main statement: `create_execute_repeated` — what naming a program again does to a run.
-/
import StorageFlow.Proofs.List.Distinct
import StorageFlow.Proofs.Session.Verdict

namespace StorageFlow

open Program

/-! ## Paths -/

/-- Two paths lead to the same file. -/
def Files.SameFile (fs : Files) (path other : Text) : Prop :=
  AbsolutePath.resolve fs.workingDirectory path = AbsolutePath.resolve fs.workingDirectory other

namespace Program

variable {fs : Files} {path other : Text}

theorem IsProgramAt.of_sameFile {d : ProgramDocument} (h : IsProgramAt fs path d) (hsame : fs.SameFile path other) :
    IsProgramAt fs other d := by
  obtain ⟨j, hj, hread⟩ := h
  exact ⟨j, hsame ▸ hj, hread⟩

theorem fileFaults_eq_of_sameFile (h : fs.SameFile path other) : fileFaults fs path = fileFaults fs other := by
  have hresolve : AbsolutePath.resolve fs.workingDirectory path =
      AbsolutePath.resolve fs.workingDirectory other := h
  rw [fileFaults, fileFaults, hresolve]

end Program

namespace Session

variable {fs : Files} {settings : Settings} {paths : List Text} {told : Text → List Diagnostic}

/-- What is told about a file does not depend on how the path to it is written. -/
theorem FoundAt.told_eq (h : FoundAt fs settings paths told) {path other : Text} (hpath : path ∈ paths)
    (hother : other ∈ paths) (hsame : fs.SameFile path other) : told path = told other := by
  obtain ⟨accesses, hfound⟩ := h
  obtain ⟨d, hd, -, htold⟩ := hfound path hpath
  obtain ⟨e, he, -, htold'⟩ := hfound other hother
  rw [htold, htold', (hd.of_sameFile hsame).unique he]

/-! ## Naming a program again -/

/-- The judgement of hard errors depends on whether there are any. -/
theorem accepts_eq_of_nil_iff (policy : Policy) (before : Diagnostic.Sink) {ds es : List Diagnostic}
    (hds : ∀ d ∈ ds, d.isError = true) (hes : ∀ d ∈ es, d.isError = true) (h : ds = [] ↔ es = []) :
    policy.accepts (before.recordAll ds) ds = policy.accepts (before.recordAll es) es := by
  rw [Bool.eq_iff_iff, Policy.accepts_recordAll_iff hds, Policy.accepts_recordAll_iff hes, h]

/-- Other diagnostics make another verdict. -/
theorem telling_inj {ds es : List Diagnostic} {success : Bool} :
    Verdict.telling ds success = Verdict.telling es success ↔ ds = es := by
  constructor
  · cases success <;> cases ds <;> cases es <;> simp [Verdict.telling]
  · exact fun h => congrArg (Verdict.telling · success) h

/-- A file that could be loaded once can be loaded again. -/
theorem exists_create_repeated {env : Environment} {front : List Text} (back : List Text) {path other : Text}
    {options : Options} {sink : Diagnostic.Sink} (hother : other ∈ front) (hsame : env.files.SameFile path other)
    (h : ∃ s created, create env (front ++ back) options sink = (.ok s, created)) :
    ∃ s created, create env (front ++ path :: back) options sink = (.ok s, created) := by
  obtain ⟨setup, hoptions, hprepare, hfiles, hnames⟩ := exists_create_iff.1 h
  refine exists_create_iff.2 ⟨setup, hoptions, hprepare, ?_, hnames⟩
  rw [List.forall_mem_append] at hfiles ⊢
  rw [List.forall_mem_cons, fileFaults_eq_of_sameFile hsame]
  exact ⟨hfiles.1, hfiles.1 other hother, hfiles.2⟩

/-- **Naming a program again.**  If a path that was named before is named again as it was, then the same session is
created.  If a file that was named before is named again by another path, then a session is created, too, and both
can be executed.  Unless they tell their findings, they come to the same verdict.  If they do, then both tell what
is found at each distinct path, in the order of the paths, and with the same success; what is told depends on the
file alone, so the findings of a file are told as often as there are different paths to it.  Hence the verdicts are
the same only if nothing is found in the file. -/
theorem create_execute_repeated (env : Environment) (front back : List Text) (path : Text) (options : Options)
    (sink : Diagnostic.Sink) :
    (path ∈ front →
      create env (front ++ path :: back) options sink = create env (front ++ back) options sink) ∧
    ∀ other ∈ front, env.files.SameFile path other →
      ∀ s created, create env (front ++ back) options sink = (.ok s, created) →
        ∃ s' created' outcome outcome' after after',
          create env (front ++ path :: back) options sink = (.ok s', created') ∧
          s.execute created = (.ok outcome, after) ∧ s'.execute created' = (.ok outcome', after') ∧
          (¬ s.TellsFindings → outcome'.verdict = outcome.verdict) ∧
          (s.TellsFindings → ∃ told success, FoundAt env.files s.settings (front ++ path :: back) told ∧
            told path = told other ∧
            outcome.verdict = .telling ((front ++ back).eraseDups.flatMap told) success ∧
            outcome'.verdict = .telling ((front ++ path :: back).eraseDups.flatMap told) success ∧
            (path ∉ front → path ∉ back → (outcome'.verdict = outcome.verdict ↔ told path = []))) := by
  refine ⟨fun hpath => ?_, fun other hother hsame s created hcreate => ?_⟩
  · simp only [create, start, eraseDups_insert_of_mem hpath]
  · have hfront : front ++ back ⊆ front ++ path :: back :=
      ((List.sublist_cons_self path back).append_left front).subset
    obtain ⟨s', created', hcreate'⟩ := exists_create_repeated back hother hsame ⟨s, created, hcreate⟩
    obtain ⟨told, hfound⟩ := exists_foundAt s.settings (fileFaults_eq_nil_of_create hcreate')
    have htold : told path = told other := hfound.told_eq (by simp) (by simp [hother]) hsame
    have hpaths : front ++ back ≠ [] := List.append_ne_nil_of_left_ne_nil (List.ne_nil_of_mem hother) _
    have hpaths' : front ++ path :: back ≠ [] := by simp
    obtain ⟨logs, after, hexecute⟩ := execute_comesTo hcreate hfound hfront
    obtain ⟨hsettings, hcomesTo⟩ := comesTo_eq_of_create hcreate hcreate'
    obtain ⟨logs', after', hexecute'⟩ := execute_comesTo hcreate' (hsettings ▸ hfound) (List.Subset.refl _)
    rw [hcomesTo] at hexecute'
    refine ⟨s', created', _, _, after, after', hcreate', hexecute, hexecute', fun htells => ?_, fun htells => ?_⟩
    · exact comesTo_eq_of_not_tells htells hpaths' hpaths told sink
    · have hnil := flatMap_insert_eq_nil_iff back hother htold
      have hsuccess := accepts_eq_of_nil_iff s.settings.successPolicy sink
        (hfound.mono hfront).isError hfound.isError hnil
      refine ⟨told, _, hfound, htold, htells.comesTo_eq hpaths, ?_, fun hnew hnew' => ?_⟩
      · rw [hsuccess]
        exact htells.comesTo_eq hpaths'
      · show s.comesTo (front ++ path :: back) told sink = s.comesTo (front ++ back) told sink ↔ _
        rw [htells.comesTo_eq hpaths, htells.comesTo_eq hpaths', ← hsuccess, telling_inj,
          eraseDups_insert_of_notMem hnew hnew', List.eraseDups_append]
        simp

/-- Another spelling of the path to the ledger. -/
def ledgerDetour : Text := "./ledger.json"

/-- What is told about the ledger is its only finding. -/
theorem FoundAt.told_ledger {settings : Settings} {paths : List Text} {told : Text → List Diagnostic}
    (h : FoundAt ledgerFiles settings paths told) (hpath : ledgerPath ∈ paths)
    (hpasses : settings.passes = builtInPassNames) (horder : settings.worklistOrder = .lifo) :
    told ledgerPath = [finding Pass.UninitializedAccess.id ledgerAccess] := by
  obtain ⟨accesses, hfound⟩ := h
  obtain ⟨d, hd, hreports, htold⟩ := hfound ledgerPath hpath
  obtain rfl := hd.unique isProgramAt_ledger
  have hbodies : ledgerProgram.bodies = [ledgerFunction] := by decide
  have hnames : builtInPassNames = [Pass.UninitializedAccess.id] := rfl
  rw [hbodies, horder, List.forall_mem_singleton] at hreports
  rw [htold, hpasses, ProgramDocument.findings, hbodies, hnames, List.flatMap_singleton,
    List.flatMap_singleton, hreports.unique reports_ledgerFunction, List.map_singleton]

/-- **Another spelling is another program.**  The ledger is named again with a detour, and its finding is told
twice. -/
theorem ledger_create_execute_repeated :
    let env : Environment := ⟨ledgerFiles, ⟨0, 0, 0, 0⟩, false⟩
    let found := finding Pass.UninitializedAccess.id ledgerAccess
    env.files.SameFile ledgerDetour ledgerPath ∧
    ∃ s created s' created' outcome outcome' after after' success,
      create env [ledgerPath] Options.none .empty = (.ok s, created) ∧
      create env [ledgerPath, ledgerDetour] Options.none .empty = (.ok s', created') ∧
      s.execute created = (.ok outcome, after) ∧ s'.execute created' = (.ok outcome', after') ∧
      outcome.verdict = .diagnostics [found] success ∧ outcome'.verdict = .diagnostics [found, found] success := by
  intro env found
  have hsame : env.files.SameFile ledgerDetour ledgerPath := by
    show AbsolutePath.resolve [] ledgerDetour = AbsolutePath.resolve [] ledgerPath
    decide +kernel
  have hcreated : ((create env [ledgerPath] Options.none .empty).1.toOption.map
      fun s => (s.settings, s.listsPasses)) = some (⟨builtInPassNames, .sink, .lifo, .ordinary⟩, false) := by
    decide +kernel
  obtain ⟨s, created, hcreate, hview⟩ := exists_create_eq hcreated
  obtain ⟨hsettings, hlists⟩ := Prod.mk.inj hview
  have htells : s.TellsFindings := by
    refine ⟨hlists, ?_, ?_⟩ <;> rw [hsettings] <;> decide
  obtain ⟨s', created', outcome, outcome', after, after', hcreate', hexecute, hexecute', -, htold⟩ :=
    (create_execute_repeated env [ledgerPath] [] ledgerDetour Options.none .empty).2 ledgerPath
      (List.mem_singleton_self _) hsame s created hcreate
  obtain ⟨told, success, hfound, hdetour, hverdict, hverdict', -⟩ := htold htells
  have hledger : told ledgerPath = [found] :=
    hfound.told_ledger List.mem_cons_self (by rw [hsettings]) (by rw [hsettings])
  have hdistinct : ([ledgerPath] ++ [ledgerDetour]).eraseDups = [ledgerPath, ledgerDetour] := by decide +kernel
  refine ⟨hsame, s, created, s', created', outcome, outcome', after, after', success, hcreate, hcreate', hexecute,
    hexecute', ?_, ?_⟩
  · have honce : ([ledgerPath] ++ []).eraseDups = [ledgerPath] := by decide +kernel
    rw [hverdict, honce, List.flatMap_singleton, hledger]
    rfl
  · rw [hverdict', hdistinct, List.flatMap_cons, List.flatMap_singleton, hdetour, hledger]
    rfl

end Session

end StorageFlow
