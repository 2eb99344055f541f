/-
# StorageFlow.Proofs.Session.Agreement — how a run is watched does not change what it says.

Two runs have the same task if they are given the same programs, passes and policy.  They may differ in the order
in which nodes are processed, in how much they tell, and in the form of their output.  Then both fail to start for
the same reason, or both come to the same verdict (`create_execute_agree`): the same accesses are found whatever
the order, they are judged by the same policy, and nothing looks at messages.

There is one exception.  What is taken for a pass without being one fails when it is executed, and what is told
about a failure depends on whether the run is traced (`traced_run_tells_more`).
-/
import StorageFlow.Proofs.Session.Configuration
import StorageFlow.Proofs.Session.Independence

namespace StorageFlow

open Program

theorem Decides.endAlike {α β : Type} {P : α → Prop} {Q : β → Prop} {x : Except Failure α} {y : Except Failure β}
    {faults : List Failure} (hx : Decides P x faults) (hy : Decides Q y faults) :
    EndAlike (fun _ _ => True) x y := by
  cases hx with
  | ok _ =>
      cases hy with
      | ok _ => exact .ok trivial
  | error =>
      cases hy with
      | error => exact .error _

/-- Whether there is a pass behind a name does not depend on the order of processing. -/
theorem Pass.nameFaults_eq (order order' : Order) (name : Text) :
    nameFaults order name = nameFaults order' name := by
  by_cases hname : name ∈ builtInPassNames
  · rw [nameFaults, nameFaults, listing_of_mem_builtInPassNames order hname,
      listing_of_mem_builtInPassNames order' hname]
  · rw [nameFaults, nameFaults, listing_of_not_mem_builtInPassNames order hname,
      listing_of_not_mem_builtInPassNames order' hname]

namespace Session

/-! ## Runs with the same task -/

/-- Two runs are given the same programs, passes and policy. -/
structure SameTask (env env' : Environment) (paths : List Text) (options options' : Options) : Prop where
  workingDirectory_eq : env'.files.workingDirectory = env.files.workingDirectory
  programs : ∀ path ∈ paths,
    readFile env'.files (AbsolutePath.resolve env.files.workingDirectory path) =
      readFile env.files (AbsolutePath.resolve env.files.workingDirectory path)
  configuration : EndAlike Settings.SameApartFromManner (Settings.source env.files options.config)
    (Settings.source env'.files options.config)
  config_eq : options'.config = options.config
  passes_eq : options'.passes = options.passes
  listPasses_eq : options'.listPasses = options.listPasses
  successPolicy_eq : options'.successPolicy = options.successPolicy
  unambiguous : ¬ (options.isVerbose = true ∧ options.isQuiet = true)
  unambiguous' : ¬ (options'.isVerbose = true ∧ options'.isQuiet = true)

/-- Two sessions have the same programs, passes and policy. -/
structure Agree (s s' : Session) (programs : List ProgramDocument) : Prop where
  settings : Settings.SameSelection s.settings s'.settings
  listsPasses_eq : s.listsPasses = s'.listsPasses
  passes : Pass.AreListed s.settings.worklistOrder s.settings.passes s.passes
  passes' : Pass.AreListed s'.settings.worklistOrder s'.settings.passes s'.passes
  units : List.Forall₂ CompilationUnit.Represents s.units programs
  units' : List.Forall₂ CompilationUnit.Represents s'.units programs
  acceptable : ∀ d ∈ programs, d.Acceptable

section SameTask

variable {env env' : Environment} {paths : List Text} {options options' : Options}
  (h : SameTask env env' paths options options')

include h

theorem SameTask.fileFaults_eq {path : Text} (hpath : path ∈ paths) :
    fileFaults env'.files path = fileFaults env.files path := by
  rw [fileFaults, fileFaults, h.workingDirectory_eq, h.programs path hpath]

theorem SameTask.isLoadedFrom {path : Text} (hpath : path ∈ paths) {cu : CompilationUnit}
    (hcu : IsLoadedFrom env'.files path cu) : IsLoadedFrom env.files path cu := by
  obtain ⟨d, ⟨j, hj, hread⟩, hrepresents⟩ := hcu
  rw [h.workingDirectory_eq, h.programs path hpath] at hj
  exact ⟨d, ⟨j, hj, hread⟩, hrepresents⟩

theorem SameTask.prepare_alike :
    EndAlike (fun setup setup' => Settings.SameSelection setup.settings setup'.settings) (Setup.prepare env options)
      (Setup.prepare env' options') :=
  Setup.prepare_alike h.configuration h.config_eq h.passes_eq h.successPolicy_eq

/-- Both runs start, or both fail to start for the same reason. -/
theorem SameTask.create_alike (sink : Diagnostic.Sink) :
    EndAlike (fun _ _ => True) (create env paths options sink).1 (create env' paths options' sink).1 := by
  simp only [create, checkOptions_eq_ok h.unambiguous, checkOptions_eq_ok h.unambiguous', Except.bind]
  have hprepare := h.prepare_alike
  generalize Setup.prepare env options = prepared at hprepare
  generalize Setup.prepare env' options' = prepared' at hprepare
  cases hprepare with
  | error failure => exact .error failure
  | @ok setup setup' hsame =>
      have hfaults : (paths.eraseDups.flatMap (fileFaults env'.files) ++
            setup'.settings.passes.flatMap (Pass.nameFaults setup'.settings.worklistOrder)) =
          paths.eraseDups.flatMap (fileFaults env.files) ++
            setup.settings.passes.flatMap (Pass.nameFaults setup.settings.worklistOrder) := by
        rw [hsame.1, funext (Pass.nameFaults_eq setup'.settings.worklistOrder setup.settings.worklistOrder)]
        refine congrArg (· ++ _) (List.flatMap_congr fun path hpath => ?_)
        exact h.fileFaults_eq (List.mem_eraseDups.1 hpath)
      have hchecks := (start_checks env paths options setup ⟨setup.journal, sink⟩).1
      have hchecks' := (start_checks env' paths options' setup' ⟨setup'.journal, sink⟩).1
      rw [hfaults] at hchecks'
      exact hchecks.endAlike hchecks'

/-- Sessions that were created for the same task agree. -/
theorem SameTask.exists_agree {sink : Diagnostic.Sink} {s s' : Session} {created created' : Trail}
    (hcreate : create env paths options sink = (.ok s, created))
    (hcreate' : create env' paths options' sink = (.ok s', created')) : ∃ programs, s.Agree s' programs := by
  obtain ⟨setup, hsetup, hstarted, hfiles, -, -⟩ := startedFrom_of_create hcreate
  obtain ⟨setup', hsetup', hstarted', hfiles', -, -⟩ := startedFrom_of_create hcreate'
  have hsettings : Settings.SameSelection setup.settings setup'.settings := by
    have hprepare := h.prepare_alike
    rw [hsetup, hsetup'] at hprepare
    cases hprepare with
    | ok hsame => exact hsame
  have hunits' : List.Forall₂ (IsLoadedFrom env.files) paths.eraseDups s'.units := by
    have hloaded := (List.forall₂_and_left _ _).2 ⟨fun _ hpath => List.mem_eraseDups.1 hpath, hstarted'.units⟩
    exact hloaded.imp fun _ _ hcu => h.isLoadedFrom hcu.1 hcu.2
  obtain ⟨programs, hunits, hprograms, haccept⟩ := exists_programs hstarted.units hfiles
  obtain ⟨programs', hunits', hprograms', -⟩ := exists_programs hunits' hfiles
  obtain rfl : programs = programs' :=
    List.right_unique_forall₂' (fun _ _ _ hd he => hd.unique he) hprograms hprograms'
  refine ⟨programs, ?_, ?_, ?_, ?_, hunits, hunits', haccept⟩
  · rw [hstarted.settings_eq, hstarted'.settings_eq]
    exact hsettings
  · rw [hstarted.listsPasses_eq, hstarted'.listsPasses_eq, Options.listsPasses, Options.listsPasses,
      h.listPasses_eq]
  · rw [hstarted.settings_eq]
    exact hstarted.passes
  · rw [hstarted'.settings_eq]
    exact hstarted'.passes

end SameTask

/-! ## Verdicts -/

/-- Two verdicts are the same, unless something was executed that is no pass, and only one of the runs is traced.
Then both tell that the run failed, and the one that is traced tells the calls that led to the failure besides. -/
inductive SameUpToTrace (trace trace' : Bool) (names : List Text) : Verdict → Verdict → Prop
  | same (verdict : Verdict) : SameUpToTrace trace trace' names verdict verdict
  | formless {name : Text} {failure : Failure} :
    name ∈ names → name ∉ builtInPassNames → trace ≠ trace' → failure.isError = true →
      SameUpToTrace trace trace' names (.error (failureText trace failure)) (.error (failureText trace' failure))

theorem SameUpToTrace.exitCode_eq {trace trace' : Bool} {names : List Text} {verdict verdict' : Verdict}
    (h : SameUpToTrace trace trace' names verdict verdict') : verdict.exitCode = verdict'.exitCode := by
  cases h with
  | same => rfl
  | formless => rfl

/-- Judging fails only where finding has failed. -/
theorem mem_of_judge_eq_error {policy : Policy} {before : Diagnostic.Sink}
    {found : List (Except Failure (List Diagnostic))} {failure : Failure}
    (h : policy.judge before found = .error failure) : .error failure ∈ found := by
  induction found generalizing before with
  | nil => exact absurd h (by simp [Policy.judge])
  | cons entry found ih =>
      cases entry with
      | error other =>
          obtain rfl := Except.error.inj h
          exact List.mem_cons_self
      | ok ds =>
          rw [Policy.judge] at h
          cases hrest : policy.judge (before.recordAll ds) found with
          | ok others =>
              rw [hrest] at h
              exact absurd h (by simp [Except.map])
          | error other =>
              rw [hrest] at h
              obtain rfl := Except.error.inj h
              exact List.mem_cons_of_mem _ (ih hrest)

/-- Finding fails only where something is no pass. -/
theorem exists_name_of_mem_found {programs : List ProgramDocument} {names : List Text}
    {accesses : PlacedFunction → List Occurrence} {failure : Failure}
    (h : .error failure ∈ found programs names accesses) :
    failure.isError = true ∧ ∃ name ∈ names, name ∉ builtInPassNames := by
  obtain ⟨d, -, h⟩ := List.mem_flatMap.1 h
  obtain ⟨name, hname, hfound⟩ := List.mem_map.1 h
  rw [ProgramDocument.foundBy] at hfound
  split at hfound
  · exact absurd hfound (by simp)
  · next hnot =>
    obtain rfl := Except.error.inj hfound
    exact ⟨rfl, name, hname, hnot⟩

/-- **Sessions that agree come to the same verdict** on every sink, and record the same. -/
theorem Agree.exists_verdicts {s s' : Session} {programs : List ProgramDocument} (h : s.Agree s' programs) :
    ∃ verdict verdict' ds, Action.Answers verdict s.verdict ds ∧ Action.Answers verdict' s'.verdict ds ∧
      ∀ sink, SameUpToTrace s.trace s'.trace s.settings.passes (verdict sink) (verdict' sink) := by
  obtain ⟨hnames, hpolicy⟩ := h.settings
  have hlisted := h.passes
  have hlisted' := h.passes'
  rw [← hnames] at hlisted'
  cases hlists : s.listsPasses with
  | true =>
      have hlists' : s'.listsPasses = true := h.listsPasses_eq ▸ hlists
      exact ⟨_, _, [], verdict_answers_of_lists hlists, verdict_answers_of_lists hlists', fun _ => .same _⟩
  | false =>
      have hlists' : s'.listsPasses = false := h.listsPasses_eq ▸ hlists
      by_cases hnone : s.settings.passes = []
      · rw [hnone, Pass.AreListed, List.forall₂_nil_left_iff] at hlisted hlisted'
        exact ⟨_, _, [], verdict_answers_of_no_passes hlists hlisted,
          verdict_answers_of_no_passes hlists' hlisted', fun _ => .same _⟩
      · obtain ⟨accesses, haccesses⟩ := exists_accesses s.settings.worklistOrder h.acceptable
        obtain ⟨accesses', haccesses'⟩ := exists_accesses s'.settings.worklistOrder h.acceptable
        have hverdict := Session.verdict_answers hlists hnone hlisted h.units haccesses
        have hverdict' := Session.verdict_answers hlists' hnone hlisted' h.units' haccesses'
        rw [found_eq haccesses' haccesses, ← hpolicy] at hverdict'
        refine ⟨_, _, _, hverdict, hverdict', fun sink => ?_⟩
        cases hjudge : s.settings.successPolicy.judge sink (found programs s.settings.passes accesses) with
        | ok success => exact .same _
        | error failure =>
            obtain ⟨hfailure, name, hname, hnot⟩ := exists_name_of_mem_found (mem_of_judge_eq_error hjudge)
            by_cases htrace : s.trace = s'.trace
            · rw [htrace]
              exact .same _
            · exact .formless hname hnot htrace hfailure

/-! ## Whole runs -/

/-- Either both runs fail to start for the same reason, or both end, with verdicts that are related, the same exit
code, and the same diagnostics in the sink. -/
def RunsAgree (R : List Text → Verdict → Verdict → Prop) (env env' : Environment) (paths : List Text)
    (options options' : Options) (sink : Diagnostic.Sink) : Prop :=
  (∃ failure after after', create env paths options sink = (.error failure, after) ∧
    create env' paths options' sink = (.error failure, after')) ∨
  ∃ s s' created created' outcome outcome' after after',
    create env paths options sink = (.ok s, created) ∧ s.execute created = (.ok outcome, after) ∧
    create env' paths options' sink = (.ok s', created') ∧ s'.execute created' = (.ok outcome', after') ∧
    R s.settings.passes outcome.verdict outcome'.verdict ∧
    outcome.verdict.exitCode = outcome'.verdict.exitCode ∧ after.sink = after'.sink

/-- **How a run is watched does not change what it says.** -/
theorem create_execute_agree (env env' : Environment) (paths : List Text) (options options' : Options)
    (sink : Diagnostic.Sink) (h : SameTask env env' paths options options') :
    RunsAgree (SameUpToTrace env.trace env'.trace) env env' paths options options' sink := by
  have hcreate := h.create_alike sink
  rcases hs : create env paths options sink with ⟨result, created⟩
  rcases hs' : create env' paths options' sink with ⟨result', created'⟩
  rw [hs, hs'] at hcreate
  cases hcreate with
  | error failure => exact .inl ⟨failure, created, created', hs, hs'⟩
  | @ok s s' _ =>
      obtain ⟨programs, hagree⟩ := h.exists_agree hs hs'
      obtain ⟨verdict, verdict', ds, hverdict, hverdict', hsame⟩ := hagree.exists_verdicts
      obtain ⟨_, -, hstarted, -, hsink, hsaves⟩ := startedFrom_of_create hs
      obtain ⟨_, -, hstarted', -, hsink', hsaves'⟩ := startedFrom_of_create hs'
      obtain ⟨logs, after, hexecute, hafter⟩ := execute_answers hverdict hsaves
      obtain ⟨logs', after', hexecute', hafter'⟩ := execute_answers hverdict' hsaves'
      have hverdicts := hsame sink
      rw [hstarted.trace_eq, hstarted'.trace_eq] at hverdicts
      rw [hsink] at hexecute
      rw [hsink'] at hexecute'
      refine .inr ⟨s, s', created, created', _, _, after, after', hs, hexecute, hs', hexecute', hverdicts, ?_, ?_⟩
      · exact hverdicts.exitCode_eq
      · rw [hafter.sink_eq, hafter'.sink_eq, hsink, hsink']

/-- One run processes nodes in the order of their discovery, tells everything and hands its messages out; the other
one does none of this. -/
theorem ledger_create_execute_agree :
    let env (trace : Bool) : Environment := ⟨ledgerFiles, ⟨0, 0, 0, 0⟩, trace⟩
    let options : Options :=
      { Options.none with worklistOrder := some .fifo, outputFormat := some .json, verbose := some true }
    SameTask (env true) (env false) [ledgerPath] options Options.none ∧
      RunsAgree (SameUpToTrace true false) (env true) (env false) [ledgerPath] options Options.none .empty := by
  intro env options
  have htask : SameTask (env true) (env false) [ledgerPath] options Options.none :=
    ⟨rfl, fun _ _ => rfl, .ok (.same _), rfl, rfl, rfl, rfl, by decide, by decide⟩
  exact ⟨htask, create_execute_agree (env true) (env false) [ledgerPath] options Options.none .empty htask⟩

/-- What a verdict tells if a run failed. -/
def errorText? : Verdict → Option Text
  | .error message => some message
  | .ok | .diagnostics .. | .passes _ => none

/-- The ledger with a configuration that enables something which is no pass. -/
def formlessFiles : Files :=
  .ofList [] [(ledgerPath, .text ledgerText),
    ("config.json", .text "\x7b\"passes\":[\x7b\"className\":\"constructor\"\x7d]\x7d")]

/-- **A run that is traced tells more about a failure.**  Two runs that differ only in whether they are traced do
not come to the same verdict. -/
theorem traced_run_tells_more :
    let env (trace : Bool) : Environment := ⟨formlessFiles, ⟨0, 0, 0, 0⟩, trace⟩
    let options : Options := { Options.none with config := some "config.json" }
    SameTask (env true) (env false) [ledgerPath] options options ∧
      ¬ RunsAgree (fun _ => Eq) (env true) (env false) [ledgerPath] options options .empty := by
  intro env options
  have htold (trace : Bool) :
      ((create (env trace) [ledgerPath] options .empty).1.toOption.bind fun s =>
        (s.execute (create (env trace) [ledgerPath] options .empty).2).1.toOption.bind fun outcome =>
          errorText? outcome.verdict) = some (failureText trace (.misuse "pass.analyze is not a function")) := by
    cases trace <;> decide +kernel
  have hdiffer : failureText true (.misuse "pass.analyze is not a function") ≠
      failureText false (.misuse "pass.analyze is not a function") := by decide +kernel
  constructor
  · exact ⟨rfl, fun _ _ => rfl, endAlike_refl .same _, rfl, rfl, rfl, rfl, by decide, by decide⟩
  · have htraced := htold true
    have huntraced := htold false
    rintro (⟨failure, after, after', hcreate, -⟩ |
      ⟨s, s', created, created', outcome, outcome', after, after', hcreate, hexecute, hcreate', hexecute', heq, -⟩)
    · rw [hcreate] at htraced
      exact absurd htraced (by simp [Except.toOption])
    · rw [hcreate] at htraced
      rw [hcreate'] at huntraced
      simp only [Except.toOption, Option.bind_some, hexecute] at htraced
      simp only [Except.toOption, Option.bind_some, hexecute'] at huntraced
      rw [heq, huntraced] at htraced
      exact hdiffer (Option.some.inj htraced).symm

end Session

end StorageFlow
