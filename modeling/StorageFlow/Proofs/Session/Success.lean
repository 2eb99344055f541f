/-
# StorageFlow.Proofs.Session.Success — when a run is successful.

Success is put together from the answers of all passes, and each pass is judged on the sink as it is by then.
All that a built-in pass records are hard errors, so whatever the policy, no pass is accepted once one of them
has found something; and as the sink only grows, none is accepted under the sink policy if there was a hard
error from the beginning (`Policy.judge_eq_true_iff`).  Hence success depends on what was there before the run
and on what is found, but not on the order of the passes; and a run that was not successful stays so when it is
repeated.

Main statement: `execute_success` — when a session is successful, and that repeating it changes nothing.
-/
import StorageFlow.Proofs.Session.Safety

namespace StorageFlow

open Program

/-! ## Policies -/

theorem isError_finding (name : Text) (o : Occurrence) : (finding name o).isError = true := by
  rw [Diagnostic.isError, finding]
  exact beq_self_eq_true _

/-- A sink without hard errors stays so if and only if no hard errors are recorded. -/
theorem Diagnostic.Sink.containsOnlyWarnings_recordAll (before : Diagnostic.Sink) (ds : List Diagnostic) :
    (before.recordAll ds).containsOnlyWarnings =
      (before.containsOnlyWarnings && ds.all fun d => !d.isError) := by
  rw [containsOnlyWarnings, recordAll, List.all_append]
  rfl

theorem all_not_isError_iff {ds : List Diagnostic} (h : ∀ d ∈ ds, d.isError = true) :
    (ds.all fun d => !d.isError) = true ↔ ds = [] := by
  cases ds with
  | nil => simp
  | cons d ds => simp [h d List.mem_cons_self]

section Policies

variable {policy : Policy} {before : Diagnostic.Sink}

/-- Hard errors are not accepted, and under the sink policy those from before count, too. -/
theorem Policy.accepts_recordAll_iff {ds : List Diagnostic} (h : ∀ d ∈ ds, d.isError = true) :
    policy.accepts (before.recordAll ds) ds = true ↔
      (policy = .sink → before.containsOnlyWarnings = true) ∧ ds = [] := by
  cases policy with
  | sink =>
      rw [accepts, Diagnostic.Sink.containsOnlyWarnings_recordAll, Bool.and_eq_true, all_not_isError_iff h]
      simp
  | pass =>
      rw [accepts, all_not_isError_iff h]
      simp

/-- Hard errors that are found one after the other are all accepted only if there are none; it suffices that one
pass is judged. -/
theorem Policy.judge_eq_true_iff (policy : Policy) (before : Diagnostic.Sink)
    {found : List (Except Failure (List Diagnostic))} (hfound : found ≠ [])
    (h : ∀ entry ∈ found, ∃ ds, entry = .ok ds ∧ ∀ d ∈ ds, d.isError = true) :
    policy.judge before found = .ok true ↔
      (policy = .sink → before.containsOnlyWarnings = true) ∧ recorded found = [] := by
  induction found generalizing before with
  | nil => exact absurd rfl hfound
  | cons entry found ih =>
      obtain ⟨ds, rfl, hds⟩ := h entry List.mem_cons_self
      have hrest : ∀ other ∈ found, ∃ es, other = .ok es ∧ ∀ d ∈ es, d.isError = true :=
        fun other hother => h other (List.mem_cons_of_mem _ hother)
      have hjudge : policy.judge before (.ok ds :: found) = .ok true ↔
          policy.accepts (before.recordAll ds) ds = true ∧
            policy.judge (before.recordAll ds) found = .ok true := by
        obtain ⟨others, hothers⟩ := policy.exists_judge_eq_ok (before.recordAll ds) fun other hother =>
          (hrest other hother).imp fun _ hes => hes.1
        rw [judge, hothers]
        simp [Except.map]
      rw [hjudge, accepts_recordAll_iff hds, recorded, List.append_eq_nil_iff]
      by_cases hlast : found = []
      · rw [hlast]
        simp [judge, recorded]
      · rw [ih (before.recordAll ds) hlast hrest]
        constructor
        · rintro ⟨⟨hbefore, hnone⟩, -, hothers⟩
          exact ⟨hbefore, hnone, hothers⟩
        · rintro ⟨hbefore, hnone, hothers⟩
          rw [hnone, Diagnostic.Sink.recordAll_nil]
          exact ⟨⟨hbefore, rfl⟩, hbefore, hothers⟩

end Policies

theorem found_ne_nil {programs : List ProgramDocument} {names : List Text}
    (accesses : PlacedFunction → List Occurrence) (hprograms : programs ≠ []) (hnames : names ≠ []) :
    found programs names accesses ≠ [] := by
  obtain ⟨d, hd⟩ := List.exists_mem_of_ne_nil programs hprograms
  intro hnil
  have hprogram : names.map (d.foundBy accesses) = [] := List.flatMap_eq_nil_iff.1 hnil d hd
  exact hnames (List.map_eq_nil_iff.1 hprogram)

/-- All that built-in passes find is hard errors. -/
theorem isError_of_mem_found {programs : List ProgramDocument} {names : List Text}
    (accesses : PlacedFunction → List Occurrence) (hnames : ∀ name ∈ names, name ∈ builtInPassNames) :
    ∀ entry ∈ found programs names accesses, ∃ ds, entry = .ok ds ∧ ∀ d ∈ ds, d.isError = true := by
  intro entry hentry
  obtain ⟨program, name, rfl⟩ := Session.exists_of_mem_found hnames hentry
  refine ⟨_, rfl, fun d hd => ?_⟩
  obtain ⟨f, -, hd⟩ := List.mem_flatMap.1 hd
  obtain ⟨o, -, rfl⟩ := List.mem_map.1 hd
  exact isError_finding name o

/-- Only a run that finds nothing and is successful is fine; the exit code goes by success alone. -/
theorem Verdict.telling_cases (found : List Diagnostic) (success : Bool) :
    (success = true ∧ found = [] → telling found success = .ok) ∧
      (¬ (success = true ∧ found = []) → telling found success = .diagnostics found success) ∧
      (telling found success).exitCode.number = if success then 0 else 1 := by
  cases success with
  | false => simp [telling, exitCode, ExitCode.number]
  | true =>
      cases found with
      | nil => simp [telling, exitCode, ExitCode.number]
      | cons d ds => simp [telling, exitCode, ExitCode.number]

/-! ## Reported accesses -/

/-- An access is reported in a function of a unit. -/
def Program.CompilationUnit.ReportsAccess (cu : CompilationUnit) (order : Order) (o : Occurrence) : Prop :=
  ∃ functions f flow r, cu.functions = .ok functions ∧ f ∈ functions ∧ cu.flowOf f = .ok flow ∧
    Analysis.run flow order = .ok r ∧ o ∈ r.accesses

section Reports

variable {order : Order} {accesses : PlacedFunction → List Occurrence}

theorem Program.CompilationUnit.Represents.reportsAccess_iff {cu : CompilationUnit} {d : ProgramDocument}
    (h : cu.Represents d) (haccesses : ∀ f ∈ d.bodies, f.Reports order (accesses f)) (o : Occurrence) :
    cu.ReportsAccess order o ↔ ∃ f ∈ d.bodies, o ∈ accesses f := by
  constructor
  · rintro ⟨functions, definition, flow, r, hfunctions, hdefinition, hflow, hrun, ho⟩
    obtain rfl : d.bodies.map PlacedFunction.definition = functions :=
      Except.ok.inj (h.functions_eq.symm.trans hfunctions)
    obtain ⟨f, hf, rfl⟩ := List.mem_map.1 hdefinition
    refine ⟨f, hf, ?_⟩
    obtain ⟨own, r', hown, hrun', haccess⟩ := haccesses f hf
    obtain rfl : own = flow :=
      Except.ok.inj ((h.flowOf_eq (List.mem_of_mem_filter hf) hown).symm.trans hflow)
    obtain rfl : r' = r := Except.ok.inj (hrun'.symm.trans hrun)
    exact haccess ▸ ho
  · rintro ⟨f, hf, ho⟩
    obtain ⟨flow, r, hflow, hrun, haccess⟩ := haccesses f hf
    exact ⟨_, f.definition, flow, r, h.functions_eq, List.mem_map_of_mem hf,
      h.flowOf_eq (List.mem_of_mem_filter hf) hflow, hrun, haccess ▸ ho⟩

/-- Nothing is found in some programs if and only if no access is reported in their units. -/
theorem findings_eq_nil_iff {units : List CompilationUnit} {programs : List ProgramDocument}
    {names : List Text} (hnames : names ≠ []) (hunits : List.Forall₂ CompilationUnit.Represents units programs)
    (haccesses : ∀ d ∈ programs, ∀ f ∈ d.bodies, f.Reports order (accesses f)) :
    (programs.flatMap fun d => d.findings names accesses) = [] ↔
      ∀ cu ∈ units, ∀ o, ¬ cu.ReportsAccess order o := by
  induction hunits with
  | nil => simp
  | @cons cu d units programs hcu _ ih =>
      have hreports := hcu.reportsAccess_iff (haccesses d List.mem_cons_self)
      have hfindings : d.findings names accesses = [] ↔ ∀ o, ¬ cu.ReportsAccess order o := by
        obtain ⟨name, hname⟩ := List.exists_mem_of_ne_nil names hnames
        simp only [ProgramDocument.findings, List.flatMap_eq_nil_iff, List.map_eq_nil_iff, hreports]
        constructor
        · rintro hnone o ⟨f, hf, ho⟩
          rw [hnone name hname f hf] at ho
          exact absurd ho List.not_mem_nil
        · intro hnone _ _ f hf
          exact List.eq_nil_iff_forall_not_mem.2 fun o ho => hnone o ⟨f, hf, ho⟩
      rw [List.flatMap_cons, List.append_eq_nil_iff, List.forall_mem_cons, hfindings,
        ih fun e he => haccesses e (List.mem_cons_of_mem _ he)]

end Reports

namespace Session

/-! ## Runs that are repeated -/

/-- The session under another policy. -/
def under (s : Session) (policy : Policy) : Session :=
  { s with settings := { s.settings with successPolicy := policy } }

/-- Executes a session several times. -/
def executeTimes (s : Session) : Nat → Action (List Outcome)
  | 0 => return []
  | n + 1 => do
    let first ← s.execute
    let others ← s.executeTimes n
    return first :: others

variable {s : Session} {ds : List Diagnostic}

/-- If the verdict does not depend on what a run itself has recorded, then it is the same every time. -/
theorem executeTimes_answers {answer : Diagnostic.Sink → Verdict} (h : Action.Answers answer s.verdict ds)
    (hstable : ∀ sink, answer (sink.recordAll ds) = answer sink) (n : Nat) {trail : Trail}
    (hsaves : trail.journal.saves = (s.format == .json)) :
    ∃ outcomes after, s.executeTimes n trail = (.ok outcomes, after) ∧ outcomes.length = n ∧
      (∀ outcome ∈ outcomes, outcome.verdict = answer trail.sink) ∧
      trail.Continues after (List.replicate n ds).flatten := by
  induction n generalizing trail with
  | zero => exact ⟨[], trail, rfl, rfl, by simp, trail.continues_refl⟩
  | succ n ih =>
      obtain ⟨logs, next, hexecute, hnext⟩ := execute_answers h hsaves
      obtain ⟨outcomes, after, htimes, hlength, hverdicts, hafter⟩ := ih (hnext.saves_eq.trans hsaves)
      rw [hnext.sink_eq, hstable] at hverdicts
      refine ⟨⟨answer trail.sink, logs⟩ :: outcomes, after, ?_, congrArg Nat.succ hlength, ?_, ?_⟩
      · rw [executeTimes, Action.bind_of_ok hexecute, Action.bind_of_ok htimes]
        rfl
      · rw [List.forall_mem_cons]
        exact ⟨rfl, hverdicts⟩
      · rw [List.replicate_succ, List.flatten_cons]
        exact hnext.trans hafter

/-! ## Sessions under other policies -/

theorem IsAbout.under {settings : Settings} {programs : List ProgramDocument} (h : s.IsAbout settings programs)
    (policy : Policy) : (s.under policy).IsAbout { settings with successPolicy := policy } programs := by
  refine ⟨?_, h.passes_eq, h.units⟩
  rw [Session.under, h.settings_eq]

theorem prepare_under (env : Environment) (options : Options) (policy : Policy) :
    Setup.prepare env { options with successPolicy := some policy } =
      (Setup.prepare env options).map fun setup =>
        { setup with settings := { setup.settings with successPolicy := policy } } := by
  unfold Setup.prepare
  dsimp only
  split <;> rfl

theorem start_under (env : Environment) (paths : List Text) (options : Options) (setup : Setup)
    (policy : Policy) :
    start env paths { options with successPolicy := some policy }
        { setup with settings := { setup.settings with successPolicy := policy } } =
      start env paths options setup >>= fun s => pure (s.under policy) := by
  simp only [start, bind_assoc, pure_bind]
  rfl

/-- Asking for a policy gives the same session under this policy. -/
theorem create_under {env : Environment} {paths : List Text} {options : Options} {sink : Diagnostic.Sink}
    {created : Trail} (h : create env paths options sink = (.ok s, created)) (policy : Policy) :
    create env paths { options with successPolicy := some policy } sink = (.ok (s.under policy), created) := by
  obtain ⟨setup, hoptions, hprepare, hstart⟩ := exists_setup_of_create h
  have hprepare' : Setup.prepare env { options with successPolicy := some policy } =
      .ok { setup with settings := { setup.settings with successPolicy := policy } } := by
    rw [prepare_under, hprepare]
    rfl
  have hoptions' : checkOptions { options with successPolicy := some policy } = .ok () := hoptions
  rw [create_eq_start hoptions' hprepare', start_under]
  exact Action.bind_of_ok hstart

/-! ## Success -/

/-- **Success of a run.**  For a session with units and built-in passes there are certain diagnostics, none of
them if and only if no access is reported in any unit.  Whatever the sink holds before, a run under the pass
policy is successful if and only if there are none of them, and a run under the sink policy if moreover the sink
holds no hard error.  A run that finds nothing and is successful is fine, and any other run tells what it found,
which is not what was there before; the exit code goes by success.  A run that is repeated comes to the same
verdict every time. -/
theorem execute_success (env : Environment) (paths : List Text) (options : Options) (sink : Diagnostic.Sink)
    (session : Session) (created : Trail) (hcreate : create env paths options sink = (.ok session, created))
    (hlists : session.listsPasses = false) (hunits : session.units ≠ [])
    (hpasses : session.settings.passes ≠ [])
    (hnames : ∀ name ∈ session.settings.passes, name ∈ builtInPassNames) :
    (∀ policy, create env paths { options with successPolicy := some policy } sink =
      (.ok (session.under policy), created)) ∧
    ∃ (found : List Diagnostic) (success : Policy → Diagnostic.Sink → Bool),
      (found = [] ↔ ∀ cu ∈ session.units, ∀ o, ¬ cu.ReportsAccess session.settings.worklistOrder o) ∧
      (∀ policy before, success policy before = true ↔
        (policy = .sink → ∀ d ∈ before.diagnostics, d.isError = false) ∧ found = []) ∧
      (∀ before, (∀ d ∈ before.diagnostics, d.isError = false) → success .sink before = success .pass before) ∧
      ∀ (policy : Policy) (before : Trail), before.journal.saves = created.journal.saves →
        ∀ n, ∃ outcomes after, (session.under policy).executeTimes n before = (.ok outcomes, after) ∧
          outcomes.length = n ∧
          (∀ outcome ∈ outcomes,
            (success policy before.sink = true ∧ found = [] → outcome.verdict = .ok) ∧
            (¬ (success policy before.sink = true ∧ found = []) →
              outcome.verdict = .diagnostics found (success policy before.sink)) ∧
            outcome.verdict.exitCode.number = if success policy before.sink then 0 else 1) ∧
          after.sink = before.sink.recordAll (List.replicate n found).flatten := by
  obtain ⟨setup, -, hstarted, hfiles, -, hsaves⟩ := startedFrom_of_create hcreate
  obtain ⟨programs, habout, -, haccept⟩ := hstarted.exists_isAbout hfiles hnames
  obtain ⟨accesses, haccesses⟩ := exists_accesses session.settings.worklistOrder haccept
  have hprograms : programs ≠ [] := by
    rintro rfl
    exact hunits (List.forall₂_nil_right_iff.1 habout.units)
  have hanswers (policy : Policy) :=
    (habout.under policy).verdict_answers hlists hpasses hnames haccesses
  dsimp only at hanswers
  choose success hjudge hanswers using hanswers
  -- Both policies ask the same of what is found; the sink policy asks more of what was there before.
  have hsuccess (policy : Policy) (sink : Diagnostic.Sink) : success policy sink = true ↔
      (policy = .sink → ∀ d ∈ sink.diagnostics, d.isError = false) ∧
        (programs.flatMap fun d => d.findings session.settings.passes accesses) = [] := by
    have hiff := policy.judge_eq_true_iff sink (found_ne_nil accesses hprograms hpasses)
      (isError_of_mem_found accesses hnames)
    rw [hjudge, recorded_found hnames] at hiff
    simpa [Diagnostic.Sink.containsOnlyWarnings] using hiff
  have hfound := findings_eq_nil_iff hpasses habout.units haccesses
  generalize (programs.flatMap fun d => d.findings session.settings.passes accesses) = found
    at hanswers hsuccess hfound
  have hstable (policy : Policy) (sink : Diagnostic.Sink) :
      success policy (sink.recordAll found) = success policy sink := by
    rw [Bool.eq_iff_iff, hsuccess, hsuccess]
    constructor
    · rintro ⟨hbefore, rfl⟩
      exact ⟨fun hpolicy => sink.recordAll_nil ▸ hbefore hpolicy, rfl⟩
    · rintro ⟨hbefore, rfl⟩
      exact ⟨fun hpolicy => sink.recordAll_nil.symm ▸ hbefore hpolicy, rfl⟩
  refine ⟨create_under hcreate, found, success, hfound, hsuccess, fun before hbefore => ?_,
    fun policy before hbefore n => ?_⟩
  · rw [Bool.eq_iff_iff, hsuccess, hsuccess]
    exact and_congr_left fun _ => iff_of_true (fun _ => hbefore) fun _ => hbefore
  · obtain ⟨outcomes, after, htimes, hlength, hverdicts, hafter⟩ := executeTimes_answers (hanswers policy)
      (fun sink => by rw [hstable]) n (hbefore.trans hsaves)
    refine ⟨outcomes, after, htimes, hlength, fun outcome houtcome => ?_, hafter.sink_eq⟩
    rw [hverdicts outcome houtcome]
    exact Verdict.telling_cases found _

/-- The access in the ledger is reported in its unit. -/
theorem reportsAccess_ledger {cu : CompilationUnit} (h : cu.Represents ledgerProgram) :
    cu.ReportsAccess .lifo ledgerAccess := by
  have hbodies : ledgerProgram.bodies = [ledgerFunction] := by decide
  have haccesses : ∀ f ∈ ledgerProgram.bodies, f.Reports .lifo [ledgerAccess] := by
    rw [hbodies]
    intro f hf
    rw [List.mem_singleton.1 hf]
    exact reports_ledgerFunction
  refine (h.reportsAccess_iff haccesses ledgerAccess).2 ⟨ledgerFunction, ?_, List.mem_singleton_self _⟩
  rw [hbodies]
  exact List.mem_singleton_self _

/-- A program with an access that is reported is rejected under both policies, and once more when it is looked at
again. -/
theorem ledger_execute_success :
    let env : Environment := ⟨ledgerFiles, ⟨0, 0, 0, 0⟩, false⟩
    ∃ session created, create env [ledgerPath] Options.none .empty = (.ok session, created) ∧
      ∃ found, found ≠ [] ∧ ∀ policy, ∃ outcomes after,
        (session.under policy).executeTimes 2 created = (.ok outcomes, after) ∧
        ∀ outcome ∈ outcomes, outcome.verdict = .diagnostics found false := by
  intro env
  have hcreated : ((create env [ledgerPath] Options.none .empty).1.toOption.map
      fun s => (s.settings, s.listsPasses)) = some (⟨builtInPassNames, .sink, .lifo, .ordinary⟩, false) := by
    decide +kernel
  obtain ⟨session, created, hcreate, hview⟩ := exists_create_eq hcreated
  obtain ⟨hsettings, hlists⟩ := Prod.mk.inj hview
  obtain ⟨_, -, hstarted, -⟩ := startedFrom_of_create hcreate
  obtain ⟨cu, hcu, ⟨d, hd, hrepresents⟩⟩ : ∃ cu ∈ session.units, IsLoadedFrom ledgerFiles ledgerPath cu := by
    have hunits := hstarted.units
    have hdistinct : [ledgerPath].eraseDups = [ledgerPath] := by decide
    rw [hdistinct, List.forall₂_cons_left_iff] at hunits
    obtain ⟨cu, rest, hcu, -, hunits⟩ := hunits
    exact ⟨cu, hunits ▸ List.mem_cons_self, hcu⟩
  rw [hd.unique isProgramAt_ledger] at hrepresents
  obtain ⟨-, found, success, hfound, hsuccess, -, htimes⟩ := execute_success env [ledgerPath] Options.none
    .empty session created hcreate hlists (List.ne_nil_of_mem hcu) (by rw [hsettings]; decide)
    (by rw [hsettings]; decide)
  have hsome : found ≠ [] := by
    intro hnone
    have hreports := hfound.1 hnone cu hcu ledgerAccess
    rw [hsettings] at hreports
    exact hreports (reportsAccess_ledger hrepresents)
  refine ⟨session, created, hcreate, found, hsome, fun policy => ?_⟩
  have hrejected : success policy created.sink = false := by
    by_contra hnot
    exact hsome ((hsuccess policy created.sink).1 (by simpa using hnot)).2
  obtain ⟨outcomes, after, hrun, -, hverdicts, -⟩ := htimes policy created rfl 2
  refine ⟨outcomes, after, hrun, fun outcome houtcome => ?_⟩
  have hverdict := (hverdicts outcome houtcome).2.1 fun hfine => hsome hfine.2
  rw [hverdict, hrejected]

end Session

end StorageFlow
