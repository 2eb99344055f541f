/-
# StorageFlow.Proofs.Command.Status — what the status of a process means.

A process ends in one of several ways: the arguments are not read to the end, no session can be created, or a session
comes to a verdict.  `Cause` lists them with the status of each.  Status one stands for two of them: a program was
rejected, or a switch was misused.

Main statement: `process_code_iff` — a process ends with a status if and only if there is a cause for it.
-/
import StorageFlow.Command
import StorageFlow.Proofs.CommandLine.Stops
import StorageFlow.Proofs.Diagnostic.Rendering
import StorageFlow.Proofs.Session.Verdict

namespace StorageFlow

open Program CommandLine

/-! ## Announcing -/

/-- A verdict can be announced if all that it tells are hard errors. -/
theorem Session.exists_announce {s : Session} {outcome : Outcome}
    (h : ∀ found success, outcome.verdict = .diagnostics found success → ∀ d ∈ found, d.isError = true)
    (trail : Trail) : ∃ after, s.announce outcome.present trail = (.ok (), after) := by
  have htext : ∃ text, s.text outcome.present = .ok text := by
    cases hformat : s.format with
    | json => exact ⟨_, by rw [Session.text, hformat]; rfl⟩
    | plain =>
        have hplain : s.text outcome.present = outcome.verdict.text s.contents s.colorizes := by
          rw [Session.text, hformat]
          rfl
        rw [hplain]
        cases hverdict : outcome.verdict with
        | diagnostics found success =>
            obtain ⟨texts, htexts⟩ := Verdict.exists_formatAll (h found success hverdict) s.contents s.colorizes
            exact ⟨_, by rw [Verdict.text, htexts]; rfl⟩
        | ok => exact ⟨_, rfl⟩
        | error message => exact ⟨_, rfl⟩
        | passes names => exact ⟨_, rfl⟩
  obtain ⟨text, htext⟩ := htext
  unfold announce
  rw [htext, Action.ofExcept_ok_bind]
  cases s.format with
  | json => exact ⟨_, rfl⟩
  | plain => exact ⟨_, rfl⟩

namespace Command

/-! ## Causes -/

/-- Options contradict each other, the configuration cannot be read, a file holds no acceptable program, or a name
has no pass. -/
inductive Hindered (env : Environment) (invocation : Invocation) : Prop
  | contradictory : invocation.options.isVerbose = true → invocation.options.isQuiet = true → Hindered env invocation
  | misconfigured {failure : Failure} : Setup.prepare env invocation.options = .error failure →
    Hindered env invocation
  | unloadable {path : Text} : path ∈ invocation.paths → (¬ ∃ d, IsProgramAt env.files path d ∧ d.Acceptable) →
    Hindered env invocation
  | unlisted {setup : Setup} {name : Text} : Setup.prepare env invocation.options = .ok setup →
    name ∈ setup.settings.passes → (¬ ∃ pass, Pass.listing setup.settings.worklistOrder name = .pass pass) →
    Hindered env invocation

/-- The arguments are read, a session is created for them, and executing it comes to a verdict. -/
def Reaches (env : Environment) (arguments : List Text) (invocation : Invocation) (s : Session)
    (verdict : Verdict) : Prop :=
  parse arguments = .ok invocation ∧ ∃ created outcome after,
    Session.create env invocation.paths invocation.options .empty = (.ok s, created) ∧
    s.execute created = (.ok outcome, after) ∧ outcome.verdict = verdict

/-- Why a process ends with a status. -/
inductive Cause (env : Environment) (arguments : List Text) : Nat → Prop
  | informed {stop : Stop} : parse arguments = .error stop → Informs arguments stop → Cause env arguments 0
  | listed {invocation : Invocation} {s : Session} {names : List Text} :
    Reaches env arguments invocation s (.passes names) → s.listsPasses = true → Cause env arguments 0
  | idle {invocation : Invocation} {s : Session} : Reaches env arguments invocation s .ok →
    s.listsPasses = false → s.settings.passes = [] ∨ invocation.paths = [] → Cause env arguments 0
  | accepted {invocation : Invocation} {s : Session} : Reaches env arguments invocation s .ok → s.TellsFindings →
    ¬ Session.ReportsAccessAt env.files invocation.paths s.settings.worklistOrder → Cause env arguments 0
  | rejected {invocation : Invocation} {s : Session} {found : List Diagnostic} :
    Reaches env arguments invocation s (.diagnostics found false) → s.TellsFindings →
    (∀ path ∈ invocation.paths, ∃ d, IsProgramAt env.files path d ∧ d.Acceptable) →
    Session.ReportsAccessAt env.files invocation.paths s.settings.worklistOrder → Cause env arguments 1
  | misused {stop : Stop} : parse arguments = .error stop → Misuses arguments stop → Cause env arguments 1
  | namesNoPasses {stop : Stop} : parse arguments = .error stop → NamesNoPasses arguments stop →
    Cause env arguments 2
  | hindered {invocation : Invocation} : parse arguments = .ok invocation → Hindered env invocation →
    Cause env arguments 2
  | failed {invocation : Invocation} {s : Session} {name message : Text} :
    Reaches env arguments invocation s (.error message) → name ∈ s.settings.passes → name ∉ builtInPassNames →
    Cause env arguments 2

variable {env : Environment} {arguments : List Text} {invocation : Invocation} {s : Session}

/-! ## Sessions that cannot be created -/

theorem hindered_iff : Hindered env invocation ↔
    ¬ ∃ s created, Session.create env invocation.paths invocation.options .empty = (.ok s, created) := by
  rw [Session.exists_create_iff]
  constructor
  · rintro hhindered ⟨setup, hoptions, hprepare, hfiles, hnames⟩
    cases hhindered with
    | contradictory hverbose hquiet =>
        rw [Session.checkOptions, hverbose, hquiet] at hoptions
        exact absurd hoptions (by simp)
    | misconfigured hfailure => exact absurd (hprepare.symm.trans hfailure) (by simp)
    | unloadable hpath hprogram => exact hprogram (fileFaults_eq_nil_iff.1 (hfiles _ hpath))
    | unlisted hprepare' hname hpass =>
        obtain rfl := Except.ok.inj (hprepare.symm.trans hprepare')
        exact hpass (Pass.nameFaults_eq_nil_iff.1 (hnames _ hname))
  · intro hnot
    by_contra hhindered
    have hoptions := Session.checkOptions_eq_ok fun hboth => hhindered (.contradictory hboth.1 hboth.2)
    cases hprepare : Setup.prepare env invocation.options with
    | error failure => exact hhindered (.misconfigured hprepare)
    | ok setup =>
        refine hnot ⟨setup, hoptions, hprepare, fun path hpath => ?_, fun name hname => ?_⟩
        · by_contra hfaults
          exact hhindered (.unloadable hpath fun hprogram => hfaults (fileFaults_eq_nil_iff.2 hprogram))
        · by_contra hfaults
          exact hhindered (.unlisted hprepare hname fun hpass => hfaults (Pass.nameFaults_eq_nil_iff.2 hpass))

/-! ## The status -/

theorem code_of_stop {stop : Stop} (h : parse arguments = .error stop) :
    (process env arguments).code = stop.code := by
  rw [process, run, h]
  cases stop <;> rfl

theorem code_of_hindered (hparse : parse arguments = .ok invocation) (h : Hindered env invocation) :
    (process env arguments).code = 2 := by
  rcases hcreate : Session.create env invocation.paths invocation.options .empty with ⟨result, trail⟩
  cases result with
  | ok s => exact absurd ⟨s, trail, hcreate⟩ (hindered_iff.1 h)
  | error failure =>
      rw [process, run, hparse]
      dsimp only
      rw [hcreate]
      rfl

theorem code_of_reaches {verdict : Verdict} (h : Reaches env arguments invocation s verdict) :
    (process env arguments).code = verdict.exitCode.number := by
  obtain ⟨hparse, created, outcome, after, hcreate, hexecute, rfl⟩ := h
  have htells : ∀ found success, outcome.verdict = .diagnostics found success → ∀ d ∈ found, d.isError = true := by
    obtain ⟨told, hfound⟩ := Session.exists_foundAt s.settings (Session.fileFaults_eq_nil_of_create hcreate)
    obtain ⟨logs, after', hexecute'⟩ := Session.execute_comesTo hcreate hfound (List.Subset.refl _)
    obtain rfl : outcome = _ := Except.ok.inj (congrArg Prod.fst (hexecute.symm.trans hexecute'))
    intro found success hverdict
    rw [(Session.tells_of_comesTo hverdict).2]
    exact hfound.isError
  obtain ⟨last, hannounce⟩ := Session.exists_announce htells after
  rw [process, run, hparse]
  dsimp only
  rw [hcreate]
  dsimp only
  rw [hexecute]
  dsimp only
  rw [hannounce]

theorem reaches_of_create {created : Trail} {told : Text → List Diagnostic} (hparse : parse arguments = .ok invocation)
    (hcreate : Session.create env invocation.paths invocation.options .empty = (.ok s, created))
    (hfound : Session.FoundAt env.files s.settings invocation.paths told) :
    Reaches env arguments invocation s (s.comesTo invocation.paths told .empty) := by
  obtain ⟨logs, after, hexecute⟩ := Session.execute_comesTo hcreate hfound (List.Subset.refl _)
  exact ⟨hparse, created, _, after, hcreate, hexecute, rfl⟩

/-- **There is always a cause.** -/
theorem exists_cause (env : Environment) (arguments : List Text) : ∃ n, Cause env arguments n := by
  cases hparse : parse arguments with
  | error stop =>
      cases parse_stops hparse with
      | informs h => exact ⟨0, .informed hparse h⟩
      | misuses h => exact ⟨1, .misused hparse h⟩
      | namesNoPasses h => exact ⟨2, .namesNoPasses hparse h⟩
  | ok invocation =>
      by_cases hhindered : Hindered env invocation
      · exact ⟨2, .hindered hparse hhindered⟩
      · obtain ⟨s, created, hcreate⟩ := not_not.1 (mt hindered_iff.2 hhindered)
        have hfiles := Session.fileFaults_eq_nil_of_create hcreate
        obtain ⟨told, hfound⟩ := Session.exists_foundAt s.settings hfiles
        have hreaches := reaches_of_create hparse hcreate hfound
        cases hlists : s.listsPasses with
        | true =>
            rw [Session.comesTo_of_lists hlists] at hreaches
            exact ⟨0, .listed hreaches hlists⟩
        | false =>
            by_cases hidle : s.settings.passes = [] ∨ invocation.paths = []
            · rw [Session.comesTo_of_idle hlists hidle] at hreaches
              exact ⟨0, .idle hreaches hlists hidle⟩
            · obtain ⟨hpasses, hpaths⟩ := not_or.1 hidle
              by_cases hnames : ∀ name ∈ s.settings.passes, name ∈ builtInPassNames
              · have htells : s.TellsFindings := ⟨hlists, hpasses, hnames⟩
                rcases htells.comesTo_empty hpaths hfound with ⟨hreports, hverdict⟩ | ⟨hreports, hverdict⟩
                · rw [hverdict] at hreaches
                  have hprograms := fun path hpath => fileFaults_eq_nil_iff.1 (hfiles path hpath)
                  exact ⟨1, .rejected hreaches htells hprograms hreports⟩
                · rw [hverdict] at hreaches
                  exact ⟨0, .accepted hreaches htells hreports⟩
              · push Not at hnames
                obtain ⟨name, hname, hnot⟩ := hnames
                rw [Session.comesTo_of_formless hlists hpaths hname hnot] at hreaches
                exact ⟨2, .failed hreaches hname hnot⟩

/-- Each cause leads to its status. -/
theorem Cause.code_eq {n : Nat} (h : Cause env arguments n) : (process env arguments).code = n := by
  cases h with
  | informed hparse h => rw [code_of_stop hparse, h.code_eq]
  | listed h => exact code_of_reaches h
  | idle h => exact code_of_reaches h
  | accepted h => exact code_of_reaches h
  | rejected h => exact code_of_reaches h
  | misused hparse h => rw [code_of_stop hparse, h.code_eq]
  | namesNoPasses hparse h => rw [code_of_stop hparse, h.code_eq]
  | hindered hparse h => exact code_of_hindered hparse h
  | failed h => exact code_of_reaches h

/-- **What the status of a process means.** -/
theorem process_code_iff (env : Environment) (arguments : List Text) (n : Nat) :
    (process env arguments).code = n ↔ Cause env arguments n := by
  constructor
  · rintro rfl
    obtain ⟨n, hcause⟩ := exists_cause env arguments
    exact hcause.code_eq.symm ▸ hcause
  · exact Cause.code_eq

/-- **A misused switch looks like a rejected program.**  There is no switch with this name, so nothing is executed, and
yet the status is that of a rejection. -/
theorem frobnicate_code :
    let env : Environment := ⟨.ofList [] [("p.json", .text "\x7b\"sources\":[]\x7d")], ⟨0, 0, 0, 0⟩, false⟩
    let arguments : List Text := ["--frobnicate", "p.json"]
    (process env arguments).code = 1 ∧ Misuses arguments (unknownSwitch "--frobnicate") ∧
      ∀ invocation s verdict, ¬ Reaches env arguments invocation s verdict := by
  intro env arguments
  have hunread : (parse arguments).toOption = none := by decide +kernel
  refine ⟨by decide +kernel, .unknownSwitch List.mem_cons_self (by decide +kernel) (by decide +kernel), ?_⟩
  rintro invocation s verdict ⟨hparse, -⟩
  rw [hparse] at hunread
  exact absurd hunread (by simp [Except.toOption])

end Command

end StorageFlow
