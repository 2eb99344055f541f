/-
# StorageFlow.Proofs.Session.Verdict — the verdict that a session comes to.

The verdict of a session that was created depends on four things: whether passes are only listed, whether there is
something to execute, whether all that is executed are passes, and what they find.  `Session.comesTo` says how, as a
function of what is found at each path; findings are judged as a whole there, although passes are judged one by one
(`Policy.judge_eq_accepts`).

Main statement: `StartedFrom.answers` — a session comes to this verdict.
-/
import StorageFlow.Proofs.Session.Success

namespace StorageFlow

open Program

/-! ## Judgements -/

section Judgements

variable {policy : Policy} {found : List (Except Failure (List Diagnostic))}

/-- **Hard errors that are found one after the other are judged as if they were found all at once.** -/
theorem Policy.judge_eq_accepts (policy : Policy) (before : Diagnostic.Sink) (hfound : found ≠ [])
    (h : ∀ entry ∈ found, ∃ ds, entry = .ok ds ∧ ∀ d ∈ ds, d.isError = true) :
    policy.judge before found =
      .ok (policy.accepts (before.recordAll (recorded found)) (recorded found)) := by
  have hrecorded : ∀ d ∈ recorded found, d.isError = true := by
    clear hfound
    induction found with
    | nil => simp [recorded]
    | cons entry found ih =>
        obtain ⟨ds, rfl, hds⟩ := h entry List.mem_cons_self
        rw [recorded, List.forall_mem_append]
        exact ⟨hds, ih fun other hother => h other (List.mem_cons_of_mem _ hother)⟩
  obtain ⟨success, hsuccess⟩ :=
    policy.exists_judge_eq_ok before fun entry hentry => (h entry hentry).imp fun _ => And.left
  have hiff := policy.judge_eq_true_iff before hfound h
  rw [hsuccess, ← accepts_recordAll_iff hrecorded] at hiff
  rw [hsuccess, Except.ok.injEq, Bool.eq_iff_iff, ← hiff, Except.ok.injEq]

/-- Whatever is found before it, a failure ends the judgement. -/
theorem Policy.judge_eq_error {before : Diagnostic.Sink} {failure : Failure} (h : .error failure ∈ found)
    (hall : ∀ other, .error other ∈ found → other = failure) : policy.judge before found = .error failure := by
  induction found generalizing before with
  | nil => exact absurd h List.not_mem_nil
  | cons entry found ih =>
      cases entry with
      | error other => rw [judge, hall other List.mem_cons_self]
      | ok ds =>
          have hlater : .error failure ∈ found := by simpa using h
          rw [judge, ih hlater fun other hother => hall other (List.mem_cons_of_mem _ hother)]
          rfl

end Judgements

namespace Session

/-! ## What is found at each path -/

/-- For each of some paths, what the enabled passes find in the program there. -/
def FoundAt (fs : Files) (settings : Settings) (paths : List Text) (told : Text → List Diagnostic) : Prop :=
  ∃ accesses : PlacedFunction → List Occurrence, ∀ path ∈ paths, ∃ d, IsProgramAt fs path d ∧
    (∀ f ∈ d.bodies, f.Reports settings.worklistOrder (accesses f)) ∧ told path = d.findings settings.passes accesses

variable {fs : Files} {settings : Settings} {paths : List Text} {told : Text → List Diagnostic}

theorem exists_foundAt (settings : Settings) (hfiles : ∀ path ∈ paths, fileFaults fs path = []) :
    ∃ told, FoundAt fs settings paths told := by
  have hload : ∀ path ∈ paths, ∃ trail cu, (loadFile fs path trail).1 = .ok cu := fun path hpath =>
    ⟨⟨noJournal, .empty⟩, (loadFile_checks fs path _).1.isOk_iff.2 (hfiles path hpath)⟩
  obtain ⟨document, hdocument⟩ := exists_documents hload
  have haccept : ∀ d ∈ paths.map document, d.Acceptable := by
    intro d hd
    obtain ⟨path, hpath, rfl⟩ := List.mem_map.1 hd
    exact (hdocument path hpath).2.1
  obtain ⟨accesses, haccesses⟩ := exists_accesses settings.worklistOrder haccept
  refine ⟨fun path => (document path).findings settings.passes accesses, accesses, fun path hpath => ?_⟩
  exact ⟨document path, (hdocument path hpath).1, haccesses _ (List.mem_map_of_mem hpath), rfl⟩

theorem FoundAt.mono {all : List Text} (h : FoundAt fs settings all told) (hall : paths ⊆ all) :
    FoundAt fs settings paths told := by
  obtain ⟨accesses, hfound⟩ := h
  exact ⟨accesses, fun path hpath => hfound path (hall hpath)⟩

theorem FoundAt.isError (h : FoundAt fs settings paths told) :
    ∀ d ∈ paths.eraseDups.flatMap told, d.isError = true := by
  obtain ⟨accesses, hfound⟩ := h
  intro d hd
  obtain ⟨path, hpath, hd⟩ := List.mem_flatMap.1 hd
  obtain ⟨program, -, -, htold⟩ := hfound path (List.mem_eraseDups.1 hpath)
  rw [htold] at hd
  obtain ⟨name, -, hd⟩ := List.mem_flatMap.1 hd
  obtain ⟨f, -, hd⟩ := List.mem_flatMap.1 hd
  obtain ⟨o, -, rfl⟩ := List.mem_map.1 hd
  exact isError_finding name o

/-- An access is reported in a program at one of some paths. -/
def ReportsAccessAt (fs : Files) (paths : List Text) (order : Order) : Prop :=
  ∃ path ∈ paths, ∃ d, IsProgramAt fs path d ∧ ∃ f ∈ d.bodies, ∃ accesses, f.Reports order accesses ∧ accesses ≠ []

/-- Nothing is told if and only if no access is reported. -/
theorem FoundAt.flatMap_eq_nil_iff (h : FoundAt fs settings paths told) (hpasses : settings.passes ≠ []) :
    paths.eraseDups.flatMap told = [] ↔ ¬ ReportsAccessAt fs paths settings.worklistOrder := by
  obtain ⟨reported, hfound⟩ := h
  obtain ⟨name, hname⟩ := List.exists_mem_of_ne_nil settings.passes hpasses
  simp only [List.flatMap_eq_nil_iff, List.mem_eraseDups]
  constructor
  · rintro hnone ⟨path, hpath, d, hd, f, hf, accesses, haccesses, hsome⟩
    obtain ⟨e, he, hreports, htold⟩ := hfound path hpath
    obtain rfl := hd.unique he
    have hbodies := List.flatMap_eq_nil_iff.1 (List.flatMap_eq_nil_iff.1 (htold ▸ hnone path hpath) name hname) f hf
    rw [← (hreports f hf).unique haccesses] at hsome
    exact hsome (List.map_eq_nil_iff.1 hbodies)
  · intro hnone path hpath
    obtain ⟨d, hd, hreports, htold⟩ := hfound path hpath
    rw [htold, ProgramDocument.findings]
    refine List.flatMap_eq_nil_iff.2 fun _ _ => List.flatMap_eq_nil_iff.2 fun f hf => ?_
    by_contra hsome
    refine hnone ⟨path, hpath, d, hd, f, hf, reported f, hreports f hf, fun heq => hsome ?_⟩
    rw [heq, List.map_nil]

/-- Path by path, what is told are the findings in the programs. -/
theorem flatMap_told_eq {accesses : PlacedFunction → List Occurrence} {programs : List ProgramDocument}
    (hprograms : List.Forall₂ (IsProgramAt fs) paths programs)
    (hfound : ∀ path ∈ paths, ∃ d, IsProgramAt fs path d ∧
      (∀ f ∈ d.bodies, f.Reports settings.worklistOrder (accesses f)) ∧
        told path = d.findings settings.passes accesses) :
    paths.flatMap told = (programs.flatMap fun d => d.findings settings.passes accesses) ∧
      ∀ d ∈ programs, ∀ f ∈ d.bodies, f.Reports settings.worklistOrder (accesses f) := by
  induction hprograms with
  | nil => exact ⟨rfl, by simp⟩
  | cons hd _ ih =>
      rw [List.forall_mem_cons] at hfound
      obtain ⟨⟨e, he, hreports, htold⟩, hfound⟩ := hfound
      obtain rfl := hd.unique he
      obtain ⟨hrest, hreports'⟩ := ih hfound
      rw [List.flatMap_cons, List.flatMap_cons, htold, hrest, List.forall_mem_cons]
      exact ⟨rfl, hreports, hreports'⟩

/-! ## The verdict -/

/-- Why something that is no pass cannot be executed. -/
def formlessFailure : Failure := .misuse "pass.analyze is not a function"

/-- The verdict that a session for some paths comes to, given what is found at each of them and what was recorded
before.  Without paths nothing is executed, so it does not matter what would be. -/
def comesTo (s : Session) (paths : List Text) (told : Text → List Diagnostic) (before : Diagnostic.Sink) : Verdict :=
  if s.listsPasses then .passes builtInPassNames
  else if s.settings.passes = [] ∨ paths = [] then .ok
  else if ∀ name ∈ s.settings.passes, name ∈ builtInPassNames then
    .telling (paths.eraseDups.flatMap told)
      (s.settings.successPolicy.accepts (before.recordAll (paths.eraseDups.flatMap told))
        (paths.eraseDups.flatMap told))
  else .error (failureText s.trace formlessFailure)

/-- What is found fails for one reason only. -/
theorem eq_formlessFailure_of_mem_found {programs : List ProgramDocument} {names : List Text}
    {accesses : PlacedFunction → List Occurrence} {failure : Failure}
    (h : .error failure ∈ found programs names accesses) : failure = formlessFailure := by
  obtain ⟨d, -, h⟩ := List.mem_flatMap.1 h
  obtain ⟨name, -, hfound⟩ := List.mem_map.1 h
  rw [ProgramDocument.foundBy] at hfound
  split at hfound
  · exact absurd hfound (by simp)
  · exact (Except.error.inj hfound).symm

/-- What a run over some programs reaches.  One thing that is no pass spoils it, whatever else is found. -/
theorem reached_found {programs : List ProgramDocument} {names : List Text} (hprograms : programs ≠ [])
    (hnames : names ≠ []) (accesses : PlacedFunction → List Occurrence) (trace : Bool) (policy : Policy)
    (before : Diagnostic.Sink) :
    Verdict.reached trace (recorded (found programs names accesses))
        (policy.judge before (found programs names accesses)) =
      if ∀ name ∈ names, name ∈ builtInPassNames then
        .telling (programs.flatMap fun d => d.findings names accesses)
          (policy.accepts (before.recordAll (programs.flatMap fun d => d.findings names accesses))
            (programs.flatMap fun d => d.findings names accesses))
      else .error (failureText trace formlessFailure) := by
  split
  · next hbuiltIn =>
    rw [policy.judge_eq_accepts before (found_ne_nil accesses hprograms hnames)
      (isError_of_mem_found accesses hbuiltIn), recorded_found hbuiltIn, Verdict.reached]
  · next hformless =>
    push Not at hformless
    obtain ⟨name, hname, hnot⟩ := hformless
    obtain ⟨d, hd⟩ := List.exists_mem_of_ne_nil programs hprograms
    have hfails : .error formlessFailure ∈ found programs names accesses :=
      List.mem_flatMap.2 ⟨d, hd, List.mem_map.2 ⟨name, hname, if_neg hnot⟩⟩
    rw [policy.judge_eq_error hfails fun _ => eq_formlessFailure_of_mem_found, Verdict.reached]

variable {env : Environment} {options : Options} {s : Session}

/-- A session without passes or without programs has nothing to execute. -/
theorem StartedFrom.answers_of_idle (h : s.StartedFrom env paths options settings) (hlists : s.listsPasses = false)
    (hidle : settings.passes = [] ∨ paths = []) : Action.Answers (fun _ => .ok) s.verdict [] := by
  by_cases hnone : settings.passes = []
  · have hpasses := h.passes
    rw [hnone, Pass.AreListed, List.forall₂_nil_left_iff] at hpasses
    exact verdict_answers_of_no_passes hlists hpasses
  · have hunits := h.units
    rw [hidle.resolve_left hnone, List.eraseDups_nil, List.forall₂_nil_left_iff] at hunits
    have hprograms : List.Forall₂ CompilationUnit.Represents s.units [] := hunits ▸ .nil
    have haccesses : ∀ d ∈ ([] : List ProgramDocument), ∀ f ∈ d.bodies, f.Reports settings.worklistOrder [] := by simp
    exact verdict_answers hlists hnone h.passes hprograms haccesses

/-- **The verdict of a session.** -/
theorem StartedFrom.answers {all : List Text} (h : s.StartedFrom env paths options settings)
    (hfiles : ∀ path ∈ paths.eraseDups, fileFaults env.files path = [])
    (hfound : FoundAt env.files settings all told) (hall : paths ⊆ all) :
    ∃ ds, Action.Answers (s.comesTo paths told) s.verdict ds := by
  unfold comesTo
  rw [h.settings_eq]
  cases hlists : s.listsPasses with
  | true => exact ⟨_, verdict_answers_of_lists hlists⟩
  | false =>
      by_cases hidle : settings.passes = [] ∨ paths = []
      · simp only [Bool.false_eq_true, if_false, if_pos hidle]
        exact ⟨_, h.answers_of_idle hlists hidle⟩
      · obtain ⟨hpasses, hpaths⟩ := not_or.1 hidle
        obtain ⟨programs, hunits, hprograms, haccept⟩ := exists_programs h.units hfiles
        obtain ⟨accesses, hfound⟩ := hfound
        obtain ⟨htold, haccesses⟩ := flatMap_told_eq hprograms fun path hpath =>
          hfound path (hall (List.mem_eraseDups.1 hpath))
        have hsome : programs ≠ [] := by
          rintro rfl
          obtain ⟨path, hpath⟩ := List.exists_mem_of_ne_nil paths hpaths
          rw [← List.mem_eraseDups, List.forall₂_nil_right_iff.1 hprograms] at hpath
          exact absurd hpath List.not_mem_nil
        have hanswers := verdict_answers hlists hpasses h.passes hunits haccesses
        simp only [reached_found hsome hpasses, h.settings_eq, ← htold] at hanswers
        simp only [Bool.false_eq_true, if_false, if_neg hidle]
        exact ⟨_, hanswers⟩

/-- **A session that was created can be executed,** and comes to its verdict. -/
theorem execute_comesTo {all : List Text} {sink : Diagnostic.Sink} {created : Trail}
    (hcreate : create env paths options sink = (.ok s, created))
    (hfound : FoundAt env.files s.settings all told) (hall : paths ⊆ all) :
    ∃ logs after, s.execute created = (.ok ⟨s.comesTo paths told sink, logs⟩, after) := by
  obtain ⟨setup, -, hstarted, hfiles, hsink, hsaves⟩ := startedFrom_of_create hcreate
  rw [hstarted.settings_eq] at hfound
  obtain ⟨ds, hanswers⟩ := hstarted.answers hfiles hfound hall
  obtain ⟨logs, after, hexecute, -⟩ := execute_answers hanswers hsaves
  rw [hsink] at hexecute
  exact ⟨logs, after, hexecute⟩

/-- Sessions that were created for different paths come to their verdicts in the same way. -/
theorem comesTo_eq_of_create {paths' : List Text} {sink sink' : Diagnostic.Sink} {s' : Session}
    {created created' : Trail} (hcreate : create env paths options sink = (.ok s, created))
    (hcreate' : create env paths' options sink' = (.ok s', created')) :
    s'.settings = s.settings ∧ s'.comesTo = s.comesTo := by
  obtain ⟨setup, hprepare, h, -⟩ := startedFrom_of_create hcreate
  obtain ⟨setup', hprepare', h', -⟩ := startedFrom_of_create hcreate'
  obtain rfl : setup = setup' := Except.ok.inj (hprepare.symm.trans hprepare')
  have hsettings : s'.settings = s.settings := h'.settings_eq.trans h.settings_eq.symm
  refine ⟨hsettings, ?_⟩
  funext paths told before
  rw [comesTo, comesTo, hsettings, h'.listsPasses_eq, h.listsPasses_eq, h'.trace_eq, h.trace_eq]

/-! ## Sessions that tell what they find -/

/-- A session tells what it finds: it has passes, all of them built in, and it is not asked to list them. -/
structure TellsFindings (s : Session) : Prop where
  listsPasses_eq : s.listsPasses = false
  passes_ne_nil : s.settings.passes ≠ []
  builtIn : ∀ name ∈ s.settings.passes, name ∈ builtInPassNames

variable {before : Diagnostic.Sink}

theorem comesTo_of_lists (hlists : s.listsPasses = true) : s.comesTo paths told before = .passes builtInPassNames := by
  rw [comesTo, if_pos hlists]

theorem comesTo_of_idle (hlists : s.listsPasses = false) (hidle : s.settings.passes = [] ∨ paths = []) :
    s.comesTo paths told before = .ok := by
  rw [comesTo, hlists, if_neg Bool.false_ne_true, if_pos hidle]

theorem comesTo_of_formless (hlists : s.listsPasses = false) (hpaths : paths ≠ []) {name : Text}
    (hname : name ∈ s.settings.passes) (hnot : name ∉ builtInPassNames) :
    s.comesTo paths told before = .error (failureText s.trace formlessFailure) := by
  have hbusy : ¬ (s.settings.passes = [] ∨ paths = []) := not_or.2 ⟨List.ne_nil_of_mem hname, hpaths⟩
  rw [comesTo, hlists, if_neg Bool.false_ne_true, if_neg hbusy, if_neg fun hall => hnot (hall name hname)]

theorem TellsFindings.comesTo_eq (h : s.TellsFindings) (hpaths : paths ≠ []) :
    s.comesTo paths told before = .telling (paths.eraseDups.flatMap told)
      (s.settings.successPolicy.accepts (before.recordAll (paths.eraseDups.flatMap told))
        (paths.eraseDups.flatMap told)) := by
  have hbusy : ¬ (s.settings.passes = [] ∨ paths = []) := not_or.2 ⟨h.passes_ne_nil, hpaths⟩
  rw [comesTo, h.listsPasses_eq, if_neg Bool.false_ne_true, if_neg hbusy, if_pos h.builtIn]

/-- Only what is found is told. -/
theorem tells_of_comesTo {found : List Diagnostic} {success : Bool}
    (h : s.comesTo paths told before = .diagnostics found success) :
    s.TellsFindings ∧ found = paths.eraseDups.flatMap told := by
  unfold comesTo at h
  split at h
  · exact absurd h (by simp)
  · next hlists =>
    split at h
    · exact absurd h (by simp)
    · next hbusy =>
      split at h
      · next hnames =>
        refine ⟨⟨by simpa using hlists, (not_or.1 hbusy).1, hnames⟩, ?_⟩
        unfold Verdict.telling at h
        split at h
        · exact absurd h (by simp)
        · exact (Verdict.diagnostics.inj h).1.symm
      · exact absurd h (by simp)

/-- Before a run nothing was recorded, so its success depends on what it finds alone. -/
theorem TellsFindings.comesTo_empty (h : s.TellsFindings) (hpaths : paths ≠ [])
    (hfound : FoundAt fs s.settings paths told) :
    (ReportsAccessAt fs paths s.settings.worklistOrder ∧
      s.comesTo paths told .empty = .diagnostics (paths.eraseDups.flatMap told) false) ∨
    (¬ ReportsAccessAt fs paths s.settings.worklistOrder ∧ s.comesTo paths told .empty = .ok) := by
  have haccepts : s.settings.successPolicy.accepts (Diagnostic.Sink.empty.recordAll (paths.eraseDups.flatMap told))
      (paths.eraseDups.flatMap told) = true ↔ _ := Policy.accepts_recordAll_iff hfound.isError
  rw [h.comesTo_eq hpaths, ← not_iff_comm.1 (hfound.flatMap_eq_nil_iff h.passes_ne_nil).symm]
  by_cases hnone : paths.eraseDups.flatMap told = []
  · right
    rw [haccepts.2 ⟨fun _ => rfl, hnone⟩, hnone]
    exact ⟨fun hsome => hsome rfl, rfl⟩
  · left
    have hrejects : s.settings.successPolicy.accepts (Diagnostic.Sink.empty.recordAll (paths.eraseDups.flatMap told))
        (paths.eraseDups.flatMap told) = false := by
      rw [Bool.eq_false_iff]
      exact fun hsuccess => hnone (haccepts.1 hsuccess).2
    rw [hrejects]
    exact ⟨hnone, by rw [Verdict.telling, Bool.and_false, if_neg Bool.false_ne_true]⟩

/-- Any other session comes to the same verdict for all paths. -/
theorem comesTo_eq_of_not_tells (h : ¬ s.TellsFindings) {paths' : List Text} (hpaths : paths ≠ [])
    (hpaths' : paths' ≠ []) (told' : Text → List Diagnostic) (before' : Diagnostic.Sink) :
    s.comesTo paths told before = s.comesTo paths' told' before' := by
  rw [comesTo, comesTo]
  simp only [hpaths, hpaths', or_false]
  split
  · rfl
  · next hlists =>
    split
    · rfl
    · next hpasses =>
      have hformless : ¬ ∀ name ∈ s.settings.passes, name ∈ builtInPassNames :=
        fun hnames => h ⟨by simpa using hlists, hpasses, hnames⟩
      rw [if_neg hformless, if_neg hformless]

end Session

end StorageFlow
