/-
# StorageFlow.Proofs.Session.Execution — everything that is found is told, and nothing else.

A run goes over programs, passes and functions.  The diagnostics of its parts are put one behind the other in
the sink (`runAll_ends`), since every pass is executed whatever the earlier ones answered, unless one of them
fails.  The findings are cut out of the sink afterwards; as the sink only grows at its end, the cut gives what
the run recorded and nothing from before (`analyze_ends`).  Together with the creation of a session this tells
what a whole run leaves behind.
-/
import StorageFlow.Proofs.Occurrence.Order
import StorageFlow.Proofs.Pass.Coverage
import StorageFlow.Proofs.Session.Creation

namespace StorageFlow

open Program

/-! ## Findings -/

/-- What a pass says about an access. -/
def finding (name : Text) (o : Occurrence) : Diagnostic where
  passId := name
  severity := Severity.error.number
  message := Pass.UninitializedAccess.message
  location := (o.site.map Site.location).getD o.subject.location
  secondaryLocations := [⟨Pass.UninitializedAccess.declaredHere, o.subject.location⟩]

theorem diagnosticFor_eq_finding {name : Text} (h : name ∈ builtInPassNames) (o : Occurrence) :
    Pass.UninitializedAccess.diagnosticFor o = finding name o := by
  rw [Pass.eq_of_mem_builtInPassNames h, Pass.UninitializedAccess.diagnosticFor, o.location_eq_getD]
  rfl

/-- What some passes find in a program, given the accesses that are reported in its functions. -/
def Program.ProgramDocument.findings (d : ProgramDocument) (names : List Text)
    (accesses : PlacedFunction → List Occurrence) : List Diagnostic :=
  names.flatMap fun name => d.bodies.flatMap fun f => (accesses f).map (finding name)

/-- What the pass behind a name finds in a program.  What is taken for a pass without being one finds nothing and
fails. -/
def Program.ProgramDocument.foundBy (d : ProgramDocument) (accesses : PlacedFunction → List Occurrence)
    (name : Text) : Except Failure (List Diagnostic) :=
  if name ∈ builtInPassNames then .ok (d.bodies.flatMap fun f => (accesses f).map (finding name))
  else .error (.misuse "pass.analyze is not a function")

/-- What each of some passes finds in some programs, program by program. -/
def found (programs : List ProgramDocument) (names : List Text) (accesses : PlacedFunction → List Occurrence) :
    List (Except Failure (List Diagnostic)) :=
  programs.flatMap fun d => names.map (d.foundBy accesses)

/-- What is recorded until a pass fails. -/
def recorded : List (Except Failure (List Diagnostic)) → List Diagnostic
  | .ok ds :: rest => ds ++ recorded rest
  | .error _ :: _ => []
  | [] => []

/-- How a policy judges what is found by one pass after the other, unless one of them fails. -/
def Policy.judge (policy : Policy) :
    Diagnostic.Sink → List (Except Failure (List Diagnostic)) → Except Failure Bool
  | before, .ok ds :: rest =>
    (judge policy (before.recordAll ds) rest).map fun others =>
      policy.accepts (before.recordAll ds) ds && others
  | _, .error failure :: _ => .error failure
  | _, [] => .ok true

theorem recorded_append_of_ok {found rest : List (Except Failure (List Diagnostic))}
    (h : ∀ entry ∈ found, ∃ ds, entry = .ok ds) :
    recorded (found ++ rest) = recorded found ++ recorded rest := by
  induction found with
  | nil => rfl
  | cons entry found ih =>
      obtain ⟨ds, rfl⟩ := h entry List.mem_cons_self
      rw [List.cons_append, recorded, recorded, ih fun other hother => h other (List.mem_cons_of_mem _ hother),
        List.append_assoc]

/-- As long as no pass fails there is a judgement. -/
theorem Policy.exists_judge_eq_ok (policy : Policy) (before : Diagnostic.Sink)
    {found : List (Except Failure (List Diagnostic))} (h : ∀ entry ∈ found, ∃ ds, entry = .ok ds) :
    ∃ success, policy.judge before found = .ok success := by
  induction found generalizing before with
  | nil => exact ⟨true, rfl⟩
  | cons entry found ih =>
      obtain ⟨ds, rfl⟩ := h entry List.mem_cons_self
      obtain ⟨success, hsuccess⟩ :=
        ih (before.recordAll ds) fun other hother => h other (List.mem_cons_of_mem _ hother)
      refine ⟨policy.accepts (before.recordAll ds) ds && success, ?_⟩
      rw [judge, hsuccess]
      rfl

/-- The verdict on some findings. -/
def Verdict.telling (ds : List Diagnostic) (success : Bool) : Verdict :=
  if ds.isEmpty && success then .ok else .diagnostics ds success

/-- The verdict on what was found, or else on the failure that ended the run. -/
def Verdict.reached (trace : Bool) (ds : List Diagnostic) : Except Failure Bool → Verdict
  | .ok success => telling ds success
  | .error failure => .error (Session.failureText trace failure)

/-- A verdict tells that certain diagnostics were recorded, all of them and no others. -/
def Verdict.Tells (verdict : Verdict) (ds : List Diagnostic) : Prop :=
  ∃ success, verdict = if ds.isEmpty && success then .ok else .diagnostics ds success

namespace Session

/-! ## Passes and units -/

variable {policy : Policy} {order : Order} {accesses : PlacedFunction → List Occurrence}
  {ds : List Diagnostic}

/-- A pass finds something in a unit and is judged on the sink with what it recorded, or it fails. -/
inductive Finds (policy : Policy) : CompilationUnit × Pass → Except Failure (List Diagnostic) → Prop
  | answers {entry : CompilationUnit × Pass} {ds : List Diagnostic} :
    Action.Answers (fun sink => policy.accepts (sink.recordAll ds) ds) (entry.2.analyze policy entry.1) ds →
      Finds policy entry (.ok ds)
  | fails {entry : CompilationUnit × Pass} {failure : Failure} :
    Action.Ends (fun _ => .error failure) (entry.2.analyze policy entry.1) [] →
      Finds policy entry (.error failure)

/-- The built-in pass finds the same under every name it has. -/
theorem pass_analyze_answers (policy : Policy) {cu : CompilationUnit} {d : ProgramDocument} {name : Text}
    (hname : name ∈ builtInPassNames) (h : cu.Represents d)
    (haccesses : ∀ f ∈ d.bodies, f.Reports order (accesses f)) :
    Action.Answers
      (fun sink => policy.accepts (sink.recordAll (d.bodies.flatMap fun f => (accesses f).map (finding name)))
        (d.bodies.flatMap fun f => (accesses f).map (finding name)))
      ((Pass.UninitializedAccess.pass order).analyze policy cu)
      (d.bodies.flatMap fun f => (accesses f).map (finding name)) := by
  have hcheck := Pass.UninitializedAccess.pass_records h haccesses
  simp only [funext (diagnosticFor_eq_finding hname)] at hcheck
  have hjudge (produced : List Diagnostic) : Action.Answers (fun sink => policy.accepts sink produced)
      (Action.getSink >>= fun sink => pure (policy.accepts sink produced)) [] :=
    Action.answers_getSink.bind_pure
  rw [Pass.analyze]
  exact hcheck.answers.bind_nil (fun _ => (hjudge _).after_log) fun _ => rfl

/-- Whatever stands behind a name finds what it should. -/
theorem finds_foundBy (policy : Policy) {cu : CompilationUnit} {d : ProgramDocument} {name : Text} {pass : Pass}
    (hpass : Pass.listing order name = .pass pass) (h : cu.Represents d)
    (haccesses : ∀ f ∈ d.bodies, f.Reports order (accesses f)) :
    Finds policy (cu, pass) (d.foundBy accesses name) := by
  rw [ProgramDocument.foundBy]
  split
  · next hname =>
    obtain rfl := Pass.Listing.pass.inj ((Pass.listing_of_mem_builtInPassNames order hname).symm.trans hpass)
    exact .answers (pass_analyze_answers policy hname h haccesses)
  · next hname =>
    obtain rfl := Pass.eq_formless_of_listing hname hpass
    exact .fails (Action.ends_fail _).bind_error

/-- Every pass is executed on every unit, unit by unit. -/
theorem forall₂_finds (policy : Policy) {units : List CompilationUnit} {programs : List ProgramDocument}
    {names : List Text} {passes : List Pass} (hpasses : Pass.AreListed order names passes)
    (hunits : List.Forall₂ CompilationUnit.Represents units programs)
    (haccesses : ∀ d ∈ programs, ∀ f ∈ d.bodies, f.Reports order (accesses f)) :
    List.Forall₂ (Finds policy) (units.flatMap fun cu => passes.map fun pass => (cu, pass))
      (found programs names accesses) := by
  induction hunits with
  | nil => exact .nil
  | cons hcu _ ih =>
      rw [found, List.flatMap_cons, List.flatMap_cons]
      refine List.rel_append ?_ (ih fun d hd => haccesses d (List.mem_cons_of_mem _ hd))
      rw [List.forall₂_map_left_iff, List.forall₂_map_right_iff]
      exact hpasses.flip.imp fun pass name hpass =>
        finds_foundBy policy hpass hcu (haccesses _ List.mem_cons_self)

/-- The policy judges pass by pass, whatever it thought of the passes before, until one of them fails. -/
theorem runAll_ends {schedule : List (CompilationUnit × Pass)} {found : List (Except Failure (List Diagnostic))}
    (h : List.Forall₂ (Finds policy) schedule found) :
    Action.Ends (fun sink => policy.judge sink found) (runAll policy schedule) (recorded found) := by
  induction h with
  | nil => exact Action.answers_pure true
  | cons hentry _ ih =>
      rw [runAll]
      cases hentry with
      | answers hentry =>
          rw [recorded]
          exact hentry.bind_ends (fun sink => ih.bind_pure) fun sink => rfl
      | fails hentry => exact hentry.bind_error

/-! ## The verdict -/

variable {s : Session}

/-- The diagnostics that are cut out of the sink are those of the run. -/
theorem analyze_ends {result : Diagnostic.Sink → Except Failure Bool}
    (h : Action.Ends result (runAll s.settings.successPolicy s.schedule) ds) :
    Action.Ends (fun sink => (result sink).map (.telling ds)) s.analyze ds := by
  intro trail
  obtain ⟨after, hrun, hafter⟩ := h trail
  refine ⟨after, ?_, hafter⟩
  have hrecorded : after.sink.since trail.sink.size = ds := by
    rw [hafter.sink_eq, Diagnostic.Sink.since_recordAll]
  show Action.bind (runAll s.settings.successPolicy s.schedule) _ trail = ((result trail.sink).map _, after)
  rw [Action.bind, hrun, ← hrecorded]
  cases result trail.sink <;> rfl

theorem verdict_answers_of_lists (hlists : s.listsPasses = true) :
    Action.Answers (fun _ => .passes builtInPassNames) s.verdict [] := by
  rw [Session.verdict, hlists]
  exact Action.answers_pure _

/-- Without passes there is nothing to execute, which is worth a warning. -/
theorem verdict_answers_of_no_passes (hlists : s.listsPasses = false) (hpasses : s.passes = []) :
    Action.Answers (fun _ => .ok) s.verdict [] := by
  rw [Session.verdict, hlists, hpasses]
  exact (Action.answers_pure _).after_log

/-- Failing becomes a verdict, too. -/
theorem verdict_answers_of_ends {result : Diagnostic.Sink → Except Failure Bool}
    (h : Action.Ends (fun sink => (result sink).map (.telling ds)) s.analyze ds) (hlists : s.listsPasses = false)
    (hpasses : s.passes ≠ []) :
    Action.Answers (fun sink => .reached s.trace ds (result sink)) s.verdict ds := by
  have hnonempty : s.passes.isEmpty = false := by simpa using hpasses
  rw [Session.verdict, hlists, hnonempty]
  refine h.attempt.bind_nil
    (fun sink => (?_ : Action.Answers (fun _ => .reached s.trace ds (result sink)) _ [])) fun _ => rfl
  cases result sink with
  | ok success => exact Action.answers_pure _
  | error failure => exact (Action.answers_pure _).after_log

/-- **A session records what is found in its programs, and answers by its policy.** -/
theorem verdict_answers {programs : List ProgramDocument} {names : List Text}
    (hlists : s.listsPasses = false) (hnames : names ≠ []) (hpasses : Pass.AreListed order names s.passes)
    (hunits : List.Forall₂ CompilationUnit.Represents s.units programs)
    (haccesses : ∀ d ∈ programs, ∀ f ∈ d.bodies, f.Reports order (accesses f)) :
    Action.Answers
      (fun sink => .reached s.trace (recorded (found programs names accesses))
        (s.settings.successPolicy.judge sink (found programs names accesses)))
      s.verdict (recorded (found programs names accesses)) := by
  have hrun := runAll_ends (forall₂_finds s.settings.successPolicy hpasses hunits haccesses)
  have hnonempty : s.passes ≠ [] := by
    intro hnil
    rw [hnil] at hpasses
    exact hnames (List.forall₂_nil_right_iff.1 hpasses)
  exact verdict_answers_of_ends (analyze_ends hrun) hlists hnonempty

/-- A run whose output is a document hands its messages out, which is possible because they were saved. -/
theorem execute_answers {verdict : Diagnostic.Sink → Verdict} (h : Action.Answers verdict s.verdict ds)
    {trail : Trail} (hsaves : trail.journal.saves = (s.format == .json)) :
    ∃ logs after, s.execute trail = (.ok ⟨verdict trail.sink, logs⟩, after) ∧ trail.Continues after ds := by
  obtain ⟨after, hverdict, hafter⟩ := h trail
  cases hformat : s.format with
  | plain =>
      refine ⟨none, after, ?_, hafter⟩
      rw [execute, Action.bind_of_ok hverdict, hformat]
      rfl
  | json =>
      have hsaved : ∃ saved, after.journal.savedMessages = .ok saved := by
        rw [Journal.savedMessages, hafter.saves_eq, hsaves, hformat]
        exact ⟨_, rfl⟩
      obtain ⟨saved, hsaved⟩ := hsaved
      refine ⟨some saved, after, ?_, hafter⟩
      have hjournal : Action.getJournal after = (.ok after.journal, after) := rfl
      rw [execute, Action.bind_of_ok hverdict, hformat]
      dsimp only
      rw [Action.bind_of_ok hjournal, hsaved]
      rfl

/-! ## Whole runs -/

/-- Built-in passes find something, and do not fail. -/
theorem exists_of_mem_found {programs : List ProgramDocument} {names : List Text}
    (hnames : ∀ name ∈ names, name ∈ builtInPassNames) {entry : Except Failure (List Diagnostic)}
    (h : entry ∈ found programs names accesses) :
    ∃ (d : ProgramDocument) (name : Text), entry =
      .ok (d.bodies.flatMap fun f => (accesses f).map (finding name)) := by
  obtain ⟨d, -, h⟩ := List.mem_flatMap.1 h
  obtain ⟨name, hname, rfl⟩ := List.mem_map.1 h
  exact ⟨d, name, if_pos (hnames name hname)⟩

/-- What built-in passes find is all recorded. -/
theorem recorded_found {programs : List ProgramDocument} {names : List Text}
    (hnames : ∀ name ∈ names, name ∈ builtInPassNames) :
    recorded (found programs names accesses) = programs.flatMap fun d => d.findings names accesses := by
  have hprogram (d : ProgramDocument) : recorded (names.map (d.foundBy accesses)) = d.findings names accesses := by
    induction names with
    | nil => rfl
    | cons name names ih =>
        rw [List.map_cons, ProgramDocument.foundBy, if_pos (hnames name List.mem_cons_self), recorded,
          ih fun other hother => hnames other (List.mem_cons_of_mem _ hother)]
        rfl
  induction programs with
  | nil => rfl
  | cons d programs ih =>
      have hok : ∀ entry ∈ names.map (d.foundBy accesses), ∃ ds, entry = .ok ds := by
        intro entry hentry
        obtain ⟨name, hname, rfl⟩ := List.mem_map.1 hentry
        exact ⟨_, if_pos (hnames name hname)⟩
      rw [found, List.flatMap_cons, recorded_append_of_ok hok, hprogram, List.flatMap_cons]
      exact congrArg _ ih

/-- A session about some programs records what is found in them, and does not fail. -/
theorem IsAbout.verdict_answers {settings : Settings} {programs : List ProgramDocument}
    (h : s.IsAbout settings programs) (hlists : s.listsPasses = false) (hpasses : settings.passes ≠ [])
    (hnames : ∀ name ∈ settings.passes, name ∈ builtInPassNames)
    (haccesses : ∀ d ∈ programs, ∀ f ∈ d.bodies, f.Reports settings.worklistOrder (accesses f)) :
    ∃ success : Diagnostic.Sink → Bool,
      (∀ sink, settings.successPolicy.judge sink (found programs settings.passes accesses) = .ok (success sink)) ∧
      Action.Answers
        (fun sink => .telling (programs.flatMap fun d => d.findings settings.passes accesses) (success sink))
        s.verdict (programs.flatMap fun d => d.findings settings.passes accesses) := by
  have hok : ∀ entry ∈ found programs settings.passes accesses, ∃ ds, entry = .ok ds := by
    intro entry hentry
    obtain ⟨d, name, hfound⟩ := exists_of_mem_found hnames hentry
    exact ⟨_, hfound⟩
  have hlisted : Pass.AreListed settings.worklistOrder settings.passes s.passes := by
    rw [h.passes_eq, Pass.AreListed, List.forall₂_map_right_iff, List.forall₂_same]
    intro name hname
    exact Pass.listing_of_mem_builtInPassNames _ (hnames name hname)
  have hjudge (sink : Diagnostic.Sink) :
      ∃ success, settings.successPolicy.judge sink (found programs settings.passes accesses) = .ok success :=
    Policy.exists_judge_eq_ok _ _ hok
  choose success hsuccess using hjudge
  refine ⟨success, hsuccess, ?_⟩
  have hanswers := Session.verdict_answers hlists hpasses hlisted h.units haccesses
  rw [h.settings_eq, recorded_found hnames] at hanswers
  simp only [hsuccess] at hanswers
  exact hanswers

/-- Executing a session about some programs records what is found in them, and tells it. -/
theorem IsAbout.execute_tells {settings : Settings} {programs : List ProgramDocument}
    (h : s.IsAbout settings programs) (hlists : s.listsPasses = false) (hpasses : settings.passes ≠ [])
    (hnames : ∀ name ∈ settings.passes, name ∈ builtInPassNames)
    (haccesses : ∀ d ∈ programs, ∀ f ∈ d.bodies, f.Reports settings.worklistOrder (accesses f))
    {trail : Trail} (hsaves : trail.journal.saves = (s.format == .json)) :
    ∃ outcome after, s.execute trail = (.ok outcome, after) ∧
      outcome.verdict.Tells (programs.flatMap fun d => d.findings settings.passes accesses) ∧
      trail.Continues after (programs.flatMap fun d => d.findings settings.passes accesses) := by
  obtain ⟨success, -, hanswers⟩ := h.verdict_answers hlists hpasses hnames haccesses
  obtain ⟨logs, after, hexecute, hafter⟩ := execute_answers hanswers hsaves
  exact ⟨_, after, hexecute, ⟨success trail.sink, rfl⟩, hafter⟩

/-- **A run tells all that is found in its programs.**  If each of some files can be loaded, a session is
created for them, and executing it does not fail.  Whatever the sink holds by then, the findings are recorded
behind that, and told: program by program, each path once, in the order of the paths; then pass by pass, as
often as named; then function by function, each with its own flow. -/
theorem create_execute (env : Environment) (paths : List Text) (options : Options) (sink : Diagnostic.Sink)
    (setup : Setup) (hoptions : checkOptions options = .ok ()) (hsetup : Setup.prepare env options = .ok setup)
    (hlists : options.listsPasses = false) (hpasses : setup.settings.passes ≠ [])
    (hnames : ∀ name ∈ setup.settings.passes, name ∈ builtInPassNames)
    (hload : ∀ path ∈ paths, ∃ trail cu, (loadFile env.files path trail).1 = .ok cu) :
    ∃ (document : Text → ProgramDocument) (accesses : PlacedFunction → List Occurrence) (session : Session)
      (journal : Journal),
      (∀ path ∈ paths, IsProgramAt env.files path (document path) ∧
        ∀ f ∈ (document path).bodies, f.Reports setup.settings.worklistOrder (accesses f)) ∧
      create env paths options sink = (.ok session, ⟨journal, sink⟩) ∧
      ∀ before : Diagnostic.Sink, ∃ outcome after,
        session.execute ⟨journal, before⟩ = (.ok outcome, after) ∧
        after.sink = before.recordAll
          (paths.eraseDups.flatMap fun path => (document path).findings setup.settings.passes accesses) ∧
        outcome.verdict.Tells
          (paths.eraseDups.flatMap fun path => (document path).findings setup.settings.passes accesses) := by
  obtain ⟨document, hdocument⟩ := exists_documents hload
  have haccept : ∀ d ∈ paths.eraseDups.map document, d.Acceptable := by
    intro d hd
    obtain ⟨path, hpath, rfl⟩ := List.mem_map.1 hd
    exact (hdocument path (List.mem_eraseDups.1 hpath)).2.1
  obtain ⟨accesses, haccesses⟩ := exists_accesses setup.settings.worklistOrder haccept
  obtain ⟨session, ⟨journal, _⟩, hstart, ⟨habout, hformat, hsession⟩, hsink, hsaves⟩ :=
    start_records (fun path hpath => (hdocument path hpath).2.2) hnames ⟨setup.journal, sink⟩
  rw [Diagnostic.Sink.recordAll_nil] at hsink
  subst hsink
  refine ⟨document, accesses, session, journal, ?_, ?_, fun before => ?_⟩
  · intro path hpath
    refine ⟨(hdocument path hpath).1, ?_⟩
    exact haccesses _ (List.mem_map_of_mem (List.mem_eraseDups.2 hpath))
  · rw [create_eq_start hoptions hsetup]
    exact hstart
  · have hjournal : (⟨journal, before⟩ : Trail).journal.saves = (session.format == .json) := by
      rw [hsaves, hformat]
      exact saves_of_prepare hsetup
    obtain ⟨outcome, after, hexecute, htells, hafter⟩ :=
      habout.execute_tells (hsession.trans hlists) hpasses hnames haccesses hjournal
    have hsink := hafter.sink_eq
    rw [List.flatMap_map] at htells hsink
    exact ⟨outcome, after, hexecute, hsink, htells⟩

/-! ## A run over one program -/

/-- A program file with a function that reads its storage pointer before anything is assigned to it. -/
def ledgerText : Text :=
  "\x7b\"sources\":[\x7b\"path\":\"a.sol\",\"nodes\":[\x7b\"kind\":\"function\",\"id\":1,\"name\":\"f\"," ++
  "\"loc\":\x7b\"start\":0,\"end\":8\x7d,\"variables\":[\x7b\"id\":2,\"name\":\"x\",\"storage\":\"storage\"," ++
  "\"loc\":\x7b\"start\":1,\"end\":2\x7d\x7d],\"cfg\":\x7b\"entry\":0,\"exit\":0,\"nodes\":[\x7b\"occurrences\":[" ++
  "\x7b\"kind\":\"declaration\",\"variable\":2\x7d,\x7b\"kind\":\"access\",\"variable\":2\x7d]\x7d]\x7d\x7d]\x7d]\x7d"

def ledgerPath : Text := "ledger.json"

def ledgerFiles : Files := .ofList [] [(ledgerPath, .text ledgerText)]

def ledgerFlow : FlowDocument := ⟨0, 0, [⟨[⟨.declaration, 2, none⟩, ⟨.access, 2, none⟩], []⟩]⟩

def ledgerFunction : PlacedFunction :=
  ⟨"a.sol", ⟨1, "f", true, ⟨0, 8, by decide⟩, [⟨2, "x", .storage, ⟨1, 2, by decide⟩⟩], some ledgerFlow⟩⟩

def ledgerProgram : ProgramDocument := ⟨none, [⟨"a.sol", none, [.function ledgerFunction.function]⟩]⟩

/-- The variable is read at the second place of the only node. -/
def ledgerAccess : Occurrence where
  place := ⟨0, 1⟩
  kind := Touch.access.number
  subject := ⟨.ofNat 1, 0, .ofNat 2, "x", .storage, ⟨some "a.sol", .ofNat 1, .ofNat 2⟩⟩
  site := none

theorem isProgramAt_ledger : IsProgramAt ledgerFiles ledgerPath ledgerProgram := by
  have hread : ((readFile ledgerFiles (AbsolutePath.resolve [] ledgerPath)).toOption.map
      fun j => (program (some j)).toExcept) = some (.ok ledgerProgram) := by decide +kernel
  obtain ⟨j, hj, hprogram⟩ := Option.map_eq_some_iff.1 hread
  exact ⟨j, eq_ok_of_toOption hj, hprogram⟩

theorem reports_ledgerFunction : ledgerFunction.Reports .lifo [ledgerAccess] := by
  have hevaluated : ((ledgerFunction.convertFlow ledgerFlow).toOption.bind fun flow =>
      (Analysis.run flow .lifo).toOption.map fun r => r.accesses) = some [ledgerAccess] := by decide +kernel
  obtain ⟨flow, hflow, hanalysed⟩ := Option.bind_eq_some_iff.1 hevaluated
  obtain ⟨r, hrun, haccesses⟩ := Option.map_eq_some_iff.1 hanalysed
  exact ⟨flow, r, ⟨rfl, ledgerFlow, rfl, eq_ok_of_toOption hflow⟩, eq_ok_of_toOption hrun, haccesses⟩

/-- The program is named twice and the pass is named twice, so the access is reported once by each of two
passes. -/
theorem ledger_create_execute :
    let env : Environment := ⟨ledgerFiles, ⟨0, 0, 0, 0⟩, false⟩
    let names : List Text := [Pass.UninitializedAccess.id, Pass.UninitializedAccess.id]
    let found := finding Pass.UninitializedAccess.id ledgerAccess
    ∃ session journal,
      create env [ledgerPath, ledgerPath] { Options.none with passes := some names } .empty =
        (.ok session, ⟨journal, .empty⟩) ∧
      ∀ before : Diagnostic.Sink, ∃ outcome after, session.execute ⟨journal, before⟩ = (.ok outcome, after) ∧
        after.sink = before.recordAll [found, found] ∧ outcome.verdict.Tells [found, found] := by
  intro env names found
  have hload : ∀ path ∈ [ledgerPath, ledgerPath],
      ∃ trail cu, (loadFile env.files path trail).1 = .ok cu := by
    have haccept : ledgerProgram.Acceptable := ProgramDocument.faults_eq_nil_iff.1 rfl
    intro path hpath
    have hpath : path = ledgerPath := by simpa using hpath
    rw [hpath]
    exact ⟨⟨noJournal, .empty⟩, isProgramAt_ledger.exists_loadFile haccept _⟩
  obtain ⟨document, accesses, session, journal, hdocument, hcreate, hexecute⟩ :=
    create_execute env [ledgerPath, ledgerPath] { Options.none with passes := some names } .empty
      ⟨⟨names, .sink, .lifo, .ordinary⟩, .ordinary, .start .ordinary false none⟩ rfl rfl rfl (by simp [names])
      (by decide) hload
  obtain ⟨hprogram, hreports⟩ := hdocument ledgerPath List.mem_cons_self
  rw [hprogram.unique isProgramAt_ledger] at hreports
  have haccesses : accesses ledgerFunction = [ledgerAccess] :=
    (hreports ledgerFunction (by decide)).unique reports_ledgerFunction
  have hfound : ([ledgerPath, ledgerPath].eraseDups.flatMap fun path =>
      (document path).findings names accesses) = [found, found] := by
    have hdistinct : [ledgerPath, ledgerPath].eraseDups = [ledgerPath] := by decide
    have hbodies : ledgerProgram.bodies = [ledgerFunction] := by decide
    rw [hdistinct, List.flatMap_singleton, hprogram.unique isProgramAt_ledger, ProgramDocument.findings, hbodies]
    simp [names, haccesses, found]
  refine ⟨session, journal, hcreate, fun before => ?_⟩
  obtain ⟨outcome, after, hrun, hsink, htells⟩ := hexecute before
  rw [hfound] at hsink htells
  exact ⟨outcome, after, hrun, hsink, htells⟩

end Session

end StorageFlow
