/-
# StorageFlow.Proofs.Session.Creation — a session holds the programs that it was given.

Whether a file can be loaded depends on the files alone (`loadFile_checks`): not on the messages and
diagnostics from before, and not on the other files.  So if each of some files can be loaded by itself, all of
them can be loaded one after the other, and a session is created in which every distinct path has a unit and
every name has a pass.
-/
import StorageFlow.Proofs.Program.Acceptance
import StorageFlow.Proofs.Validation.Meaning
import StorageFlow.Session

namespace StorageFlow

open Program

/-! ## Program files -/

namespace Program

/-- At a path there is a file with a document that matches the schema and describes a certain program. -/
def IsProgramAt (fs : Files) (path : Text) (d : ProgramDocument) : Prop :=
  ∃ j, readFile fs (AbsolutePath.resolve fs.workingDirectory path) = .ok j ∧
    (program (some j)).toExcept = .ok d

theorem IsProgramAt.unique {fs : Files} {path : Text} {d e : ProgramDocument} (hd : IsProgramAt fs path d)
    (he : IsProgramAt fs path e) : d = e := by
  obtain ⟨j, hj, hd⟩ := hd
  obtain ⟨k, hk, he⟩ := he
  obtain rfl : j = k := Except.ok.inj (hj.symm.trans hk)
  exact Except.ok.inj (hd.symm.trans he)

/-- All that is wrong with a program file. -/
def fileFaults (fs : Files) (path : Text) : List Failure :=
  match readFile fs (AbsolutePath.resolve fs.workingDirectory path) with
  | .ok j => jsonFaults (AbsolutePath.resolve fs.workingDirectory path).text j
  | .error failure => [failure]

theorem loadFile_checks (fs : Files) (path : Text) :
    Action.Checks (fun cu => ∃ d, IsProgramAt fs path d ∧ CompilationUnit.Represents cu d) (loadFile fs path)
      (fileFaults fs path) := by
  unfold loadFile fileFaults
  dsimp only
  cases hread : readFile fs (AbsolutePath.resolve fs.workingDirectory path) with
  | error failure => exact fun trail => ⟨.error, trail.continues_refl⟩
  | ok j =>
      rw [Action.ofExcept_ok_bind]
      refine (loadJson_checks j _ _).imp fun cu hcu => ?_
      obtain ⟨d, hd, hrepresents⟩ := hcu
      exact ⟨d, ⟨j, hread, hd⟩, hrepresents⟩

theorem IsProgramAt.fileFaults_eq {fs : Files} {path : Text} {d : ProgramDocument} (h : IsProgramAt fs path d) :
    fileFaults fs path = d.faults := by
  obtain ⟨j, hj, hread⟩ := h
  rw [fileFaults, hj]
  simp only [jsonFaults, hread]

theorem IsProgramAt.exists_loadFile {fs : Files} {path : Text} {d : ProgramDocument}
    (h : IsProgramAt fs path d) (haccept : d.Acceptable) (trail : Trail) :
    ∃ cu, (loadFile fs path trail).1 = .ok cu := by
  rw [(loadFile_checks fs path trail).1.isOk_iff, h.fileFaults_eq]
  exact ProgramDocument.faults_eq_nil_iff.2 haccept

/-- What was loaded from a file represents the acceptable program in it. -/
theorem represents_of_loadFile {fs : Files} {path : Text} {trail : Trail} {cu : CompilationUnit}
    (h : (loadFile fs path trail).1 = .ok cu) :
    ∃ d, IsProgramAt fs path d ∧ d.Acceptable ∧ cu.Represents d := by
  have hdecides := (loadFile_checks fs path trail).1
  have hfaults : fileFaults fs path = [] := hdecides.isOk_iff.1 ⟨cu, h⟩
  rw [h] at hdecides
  obtain ⟨d, hd, hrepresents⟩ := hdecides.of_ok
  rw [hd.fileFaults_eq] at hfaults
  exact ⟨d, hd, ProgramDocument.faults_eq_nil_iff.1 hfaults, hrepresents⟩

/-- There is nothing to object to in a file if and only if it holds an acceptable program. -/
theorem fileFaults_eq_nil_iff {fs : Files} {path : Text} :
    fileFaults fs path = [] ↔ ∃ d, IsProgramAt fs path d ∧ d.Acceptable := by
  constructor
  · intro hfaults
    obtain ⟨cu, hcu⟩ := (loadFile_checks fs path ⟨.start .silent false none, .empty⟩).1.isOk_iff.2 hfaults
    obtain ⟨d, hd, haccept, -⟩ := represents_of_loadFile hcu
    exact ⟨d, hd, haccept⟩
  · rintro ⟨d, hd, haccept⟩
    rw [hd.fileFaults_eq]
    exact ProgramDocument.faults_eq_nil_iff.2 haccept

/-- A file that could be loaded once can be loaded any time, and gives an acceptable program. -/
theorem exists_loadFile_records {fs : Files} {path : Text} {trail : Trail} {cu : CompilationUnit}
    (h : (loadFile fs path trail).1 = .ok cu) :
    ∃ d, IsProgramAt fs path d ∧ d.Acceptable ∧
      Action.Records (fun cu => cu.Represents d) (loadFile fs path) [] := by
  obtain ⟨d, hd, haccept, -⟩ := represents_of_loadFile h
  have hchecks := loadFile_checks fs path
  rw [hd.fileFaults_eq, ProgramDocument.faults_eq_nil_iff.2 haccept] at hchecks
  refine ⟨d, hd, haccept, hchecks.records.imp fun cu hcu => ?_⟩
  obtain ⟨e, he, hrepresents⟩ := hcu
  exact hd.unique he ▸ hrepresents

/-- Files that can each be loaded hold some programs. -/
theorem exists_documents {fs : Files} {paths : List Text}
    (h : ∀ path ∈ paths, ∃ trail cu, (loadFile fs path trail).1 = .ok cu) :
    ∃ document : Text → ProgramDocument, ∀ path ∈ paths,
      IsProgramAt fs path (document path) ∧ (document path).Acceptable ∧
        Action.Records (fun cu => cu.Represents (document path)) (loadFile fs path) [] := by
  have hprograms : ∀ path, ∃ d, path ∈ paths → IsProgramAt fs path d ∧ d.Acceptable ∧
      Action.Records (fun cu => cu.Represents d) (loadFile fs path) [] := by
    intro path
    by_cases hpath : path ∈ paths
    · obtain ⟨trail, cu, hcu⟩ := h path hpath
      obtain ⟨d, hd⟩ := exists_loadFile_records hcu
      exact ⟨d, fun _ => hd⟩
    · exact ⟨⟨none, []⟩, fun hmem => absurd hmem hpath⟩
  choose document hdocument using hprograms
  exact ⟨document, hdocument⟩

end Program

/-! ## Passes -/

namespace Pass

variable {order : Order} {names : List Text}

theorem eq_of_mem_builtInPassNames {name : Text} (h : name ∈ builtInPassNames) :
    name = UninitializedAccess.id := List.mem_singleton.1 h

/-- Behind each of some names there is a pass. -/
def AreListed (order : Order) (names : List Text) (passes : List Pass) : Prop :=
  List.Forall₂ (fun name pass => listing order name = .pass pass) names passes

/-- What is wrong with the name of a pass. -/
def nameFaults (order : Order) (name : Text) : List Failure :=
  match listing order name with
  | .pass _ => []
  | .nothing | .unloadable _ => [.mistake (.passNotFound name)]

theorem nameFaults_eq_nil_iff {name : Text} :
    nameFaults order name = [] ↔ ∃ pass, listing order name = .pass pass := by
  unfold nameFaults
  split <;> simp_all

theorem listing_of_mem_builtInPassNames (order : Order) {name : Text} (h : name ∈ builtInPassNames) :
    listing order name = .pass (UninitializedAccess.pass order) := by
  rw [listing, builtIn?, if_pos (eq_of_mem_builtInPassNames h)]

theorem eq_formless_of_mem_taken {name : Text} {pass : Pass} (h : (name, Listing.pass pass) ∈ taken) :
    pass = formless := by
  simp only [taken, List.mem_cons, Prod.mk.injEq, Listing.pass.injEq, reduceCtorEq, and_false, List.not_mem_nil,
    or_false] at h
  rcases h with ⟨-, rfl⟩ | ⟨-, rfl⟩
  · rfl
  · rfl

theorem listing_of_not_mem_builtInPassNames (order : Order) {name : Text} (h : name ∉ builtInPassNames) :
    listing order name = (Table.find? name taken).getD .nothing := by
  have hnone : builtIn? order name = none := by
    rw [← Option.not_isSome_iff_eq_none, isSome_builtIn?_iff]
    exact h
  rw [listing, hnone]

/-- What stands behind other names is no pass, even if it is taken for one. -/
theorem eq_formless_of_listing {name : Text} {pass : Pass} (hname : name ∉ builtInPassNames)
    (h : listing order name = .pass pass) : pass = formless := by
  rw [listing_of_not_mem_builtInPassNames order hname] at h
  cases hfound : Table.find? name taken with
  | none =>
      rw [hfound] at h
      exact absurd h (by simp)
  | some entry =>
      rw [hfound] at h
      obtain rfl : entry = .pass pass := h
      exact eq_formless_of_mem_taken (Table.mem_of_find?_eq_some hfound)

/-- The pass behind a name, if there is one. -/
def listed? (order : Order) (name : Text) : Option Pass :=
  match listing order name with
  | .pass pass => some pass
  | .nothing | .unloadable _ => none

theorem findBuiltIn_checks (order : Order) (name : Text) :
    Action.Checks (fun found => found = listed? order name) (findBuiltIn order name) [] := by
  unfold findBuiltIn listed?
  cases listing order name with
  | pass pass => exact Action.checks_pure rfl
  | nothing => exact (Action.checks_log _ _).bind fun _ _ => Action.checks_pure rfl
  | unloadable reason => exact (Action.checks_log _ _).bind fun _ _ => Action.checks_pure rfl

/-- Looking for passes never fails; it is for the caller to require them. -/
theorem findAll_checks (order : Order) (names : List Text) :
    Action.Checks (fun found => found = names.map fun name => (name, listed? order name))
      (findAll order names) [] := by
  induction names with
  | nil => exact Action.checks_pure rfl
  | cons name names ih =>
      rw [findAll]
      refine (findBuiltIn_checks order name).bind fun found hfound => ?_
      refine ih.bind fun others hothers => Action.checks_pure ?_
      rw [hfound, hothers, List.map_cons]

theorem requireAll_decides (order : Order) (names : List Text) :
    Decides (AreListed order names) (requireAll (names.map fun name => (name, listed? order name)))
      (names.flatMap (nameFaults order)) := by
  induction names with
  | nil => exact .ok .nil
  | cons name names ih =>
      rw [List.map_cons, List.flatMap_cons]
      cases h : listing order name with
      | pass pass =>
          simp only [listed?, nameFaults, h, requireAll, List.nil_append]
          exact ih.map fun passes hpasses => .cons h hpasses
      | nothing =>
          simp only [listed?, nameFaults, h, requireAll]
          exact .error
      | unloadable reason =>
          simp only [listed?, nameFaults, h, requireAll]
          exact .error

end Pass

/-! ## Sessions -/

namespace Session

/-- A session is about some programs: it has a unit for each of them, and the passes of the configuration. -/
structure IsAbout (s : Session) (settings : Settings) (programs : List ProgramDocument) : Prop where
  settings_eq : s.settings = settings
  passes_eq : s.passes = settings.passes.map fun _ => Pass.UninitializedAccess.pass settings.worklistOrder
  units : List.Forall₂ CompilationUnit.Represents s.units programs

theorem loadFiles_records {fs : Files} {document : Text → ProgramDocument} {paths : List Text}
    (h : ∀ path ∈ paths, Action.Records (fun cu => cu.Represents (document path)) (loadFile fs path) []) :
    Action.Records (fun units => List.Forall₂ CompilationUnit.Represents units (paths.map document))
      (loadFiles fs paths) [] := by
  induction paths with
  | nil => exact Action.records_pure .nil
  | cons path paths ih =>
      have hothers := ih fun other hother => h other (List.mem_cons_of_mem path hother)
      rw [loadFiles]
      refine (h path List.mem_cons_self).bind_nil fun cu hcu => ?_
      exact hothers.bind_pure fun units hunits => .cons hcu hunits

theorem lookUpPasses_checks (order : Order) (names : List Text) :
    Action.Checks (Pass.AreListed order names) (lookUpPasses order names)
      (names.flatMap (Pass.nameFaults order)) := by
  rw [lookUpPasses, ← List.nil_append (names.flatMap _), ← List.append_nil (names.flatMap _)]
  refine (Pass.findAll_checks order names).bind fun found hfound => ?_
  rw [hfound]
  refine (Action.checks_ofExcept (Pass.requireAll_decides order names)).bind fun passes hpasses => ?_
  exact (Action.checks_log _ _).bind fun _ _ => Action.checks_pure hpasses

/-- Behind names of built-in passes there is the one built-in pass. -/
theorem eq_map_of_areListed {order : Order} {names : List Text} {passes : List Pass}
    (h : Pass.AreListed order names passes) (hnames : ∀ name ∈ names, name ∈ builtInPassNames) :
    passes = names.map fun _ => Pass.UninitializedAccess.pass order := by
  induction h with
  | nil => rfl
  | cons hpass _ ih =>
      have hbuiltIn := Pass.listing_of_mem_builtInPassNames order (hnames _ List.mem_cons_self)
      obtain rfl := Pass.Listing.pass.inj (hpass.symm.trans hbuiltIn)
      rw [List.map_cons, ← ih fun name hname => hnames name (List.mem_cons_of_mem _ hname)]

theorem lookUpPasses_records {order : Order} {names : List Text}
    (h : ∀ name ∈ names, name ∈ builtInPassNames) :
    Action.Records (fun passes => passes = names.map fun _ => Pass.UninitializedAccess.pass order)
      (lookUpPasses order names) [] := by
  have hfaults : names.flatMap (Pass.nameFaults order) = [] := by
    rw [List.flatMap_eq_nil_iff]
    intro name hname
    exact Pass.nameFaults_eq_nil_iff.2 ⟨_, Pass.listing_of_mem_builtInPassNames order (h name hname)⟩
  have hchecks := lookUpPasses_checks order names
  rw [hfaults] at hchecks
  exact hchecks.records.imp fun passes hpasses => eq_map_of_areListed hpasses h

/-- **Starting succeeds.**  The session is about the programs at the distinct paths. -/
theorem start_records {env : Environment} {paths : List Text} {options : Options} {setup : Setup}
    {document : Text → ProgramDocument}
    (hload : ∀ path ∈ paths,
      Action.Records (fun cu => cu.Represents (document path)) (loadFile env.files path) [])
    (hnames : ∀ name ∈ setup.settings.passes, name ∈ builtInPassNames) :
    Action.Records
      (fun s => s.IsAbout setup.settings (paths.eraseDups.map document) ∧ s.format = options.format ∧
        s.listsPasses = options.listsPasses)
      (start env paths options setup) [] := by
  have hdistinct : ∀ path ∈ paths.eraseDups,
      Action.Records (fun cu => cu.Represents (document path)) (loadFile env.files path) [] :=
    fun path hpath => hload path (List.mem_eraseDups.1 hpath)
  refine (loadFiles_records hdistinct).bind_nil fun units hunits => ?_
  refine (lookUpPasses_records hnames).bind_pure fun passes hpasses => ?_
  exact ⟨⟨rfl, hpasses, hunits⟩, rfl, rfl⟩

theorem checkOptions_eq_ok {options : Options} (h : ¬ (options.isVerbose = true ∧ options.isQuiet = true)) :
    checkOptions options = .ok () := by
  rw [checkOptions, if_neg]
  simpa using h

theorem saves_of_prepare {env : Environment} {options : Options} {setup : Setup}
    (h : Setup.prepare env options = .ok setup) : setup.journal.saves = (options.format == .json) := by
  unfold Setup.prepare at h
  split at h
  · exact absurd h (by simp)
  · cases h
    rfl

theorem create_eq_start {env : Environment} {paths : List Text} {options : Options} {setup : Setup}
    {sink : Diagnostic.Sink} (hoptions : checkOptions options = .ok ())
    (hsetup : Setup.prepare env options = .ok setup) :
    create env paths options sink = start env paths options setup ⟨setup.journal, sink⟩ := by
  have hprepare : ((checkOptions options).bind fun _ => Setup.prepare env options) = .ok setup := by
    rw [hoptions]
    exact hsetup
  rw [create, hprepare]

/-! ## Sessions that were created -/

/-- A unit is loaded from the program file at a path. -/
def IsLoadedFrom (fs : Files) (path : Text) (cu : CompilationUnit) : Prop :=
  ∃ d, IsProgramAt fs path d ∧ cu.Represents d

/-- A session has a unit for each distinct path and a pass for each name, and the options it was given. -/
structure StartedFrom (s : Session) (env : Environment) (paths : List Text) (options : Options)
    (settings : Settings) : Prop where
  settings_eq : s.settings = settings
  passes : Pass.AreListed settings.worklistOrder settings.passes s.passes
  units : List.Forall₂ (IsLoadedFrom env.files) paths.eraseDups s.units
  format_eq : s.format = options.format
  listsPasses_eq : s.listsPasses = options.listsPasses
  trace_eq : s.trace = env.trace

theorem loadFiles_checks (fs : Files) (paths : List Text) :
    Action.Checks (List.Forall₂ (IsLoadedFrom fs) paths) (loadFiles fs paths)
      (paths.flatMap (fileFaults fs)) := by
  induction paths with
  | nil => exact Action.checks_pure .nil
  | cons path paths ih =>
      rw [loadFiles, List.flatMap_cons, ← List.append_nil (paths.flatMap _)]
      refine (loadFile_checks fs path).bind fun cu hcu => ?_
      exact ih.bind fun units hunits => Action.checks_pure (.cons hcu hunits)

/-- **Starting fails with the first fault** of the program files and of the names of passes. -/
theorem start_checks (env : Environment) (paths : List Text) (options : Options) (setup : Setup) :
    Action.Checks (fun s => s.StartedFrom env paths options setup.settings) (start env paths options setup)
      (paths.eraseDups.flatMap (fileFaults env.files) ++
        setup.settings.passes.flatMap (Pass.nameFaults setup.settings.worklistOrder)) := by
  rw [start, ← List.append_nil (setup.settings.passes.flatMap _)]
  refine (loadFiles_checks env.files paths.eraseDups).bind fun units hunits => ?_
  refine (lookUpPasses_checks _ setup.settings.passes).bind fun passes hpasses => ?_
  exact Action.checks_pure ⟨rfl, hpasses, hunits, rfl, rfl, rfl⟩

/-- What can be seen of the result of a creation tells that a session was created. -/
theorem exists_create_eq {α : Type} {env : Environment} {paths : List Text} {options : Options}
    {sink : Diagnostic.Sink} {view : Session → α} {a : α}
    (h : (create env paths options sink).1.toOption.map view = some a) :
    ∃ s created, create env paths options sink = (.ok s, created) ∧ view s = a := by
  rcases hcreate : create env paths options sink with ⟨result, created⟩
  rw [hcreate] at h
  obtain ⟨s, hs, hview⟩ := Option.map_eq_some_iff.1 h
  obtain rfl : result = .ok s := eq_ok_of_toOption hs
  exact ⟨s, created, rfl, hview⟩

/-- A session that was created was set up and started. -/
theorem exists_setup_of_create {env : Environment} {paths : List Text} {options : Options}
    {sink : Diagnostic.Sink} {s : Session} {trail : Trail}
    (h : create env paths options sink = (.ok s, trail)) :
    ∃ setup, checkOptions options = .ok () ∧ Setup.prepare env options = .ok setup ∧
      start env paths options setup ⟨setup.journal, sink⟩ = (.ok s, trail) := by
  unfold create at h
  split at h
  · exact absurd h (by simp)
  · next setup hsetup =>
    unfold checkOptions at hsetup ⊢
    split at hsetup
    · exact absurd hsetup (by simp [Except.bind])
    · next hclear => exact ⟨setup, if_neg hclear, hsetup, h⟩

/-- **A session is created unless there is something to object to** in the options, in the configuration, in one
of the files, or in one of the names of passes. -/
theorem exists_create_iff {env : Environment} {paths : List Text} {options : Options} {sink : Diagnostic.Sink} :
    (∃ s created, create env paths options sink = (.ok s, created)) ↔
      ∃ setup, checkOptions options = .ok () ∧ Setup.prepare env options = .ok setup ∧
        (∀ path ∈ paths, fileFaults env.files path = []) ∧
        ∀ name ∈ setup.settings.passes, Pass.nameFaults setup.settings.worklistOrder name = [] := by
  have hstart (setup : Setup) : (∃ s, (start env paths options setup ⟨setup.journal, sink⟩).1 = .ok s) ↔
      (∀ path ∈ paths, fileFaults env.files path = []) ∧
        ∀ name ∈ setup.settings.passes, Pass.nameFaults setup.settings.worklistOrder name = [] := by
    rw [(start_checks env paths options setup _).1.isOk_iff, List.append_eq_nil_iff, List.flatMap_eq_nil_iff,
      List.flatMap_eq_nil_iff]
    simp only [List.mem_eraseDups]
  constructor
  · rintro ⟨s, created, hcreate⟩
    obtain ⟨setup, hoptions, hprepare, hstarted⟩ := exists_setup_of_create hcreate
    exact ⟨setup, hoptions, hprepare, (hstart setup).1 ⟨s, congrArg Prod.fst hstarted⟩⟩
  · rintro ⟨setup, hoptions, hprepare, hfaultless⟩
    obtain ⟨s, hs⟩ := (hstart setup).2 hfaultless
    rw [create_eq_start hoptions hprepare]
    exact ⟨s, _, Prod.ext hs rfl⟩

/-- There is nothing to object to in the files of a session that was created. -/
theorem fileFaults_eq_nil_of_create {env : Environment} {paths : List Text} {options : Options}
    {sink : Diagnostic.Sink} {s : Session} {trail : Trail} (h : create env paths options sink = (.ok s, trail)) :
    ∀ path ∈ paths, fileFaults env.files path = [] := by
  obtain ⟨setup, -, -, hfiles, -⟩ := exists_create_iff.1 ⟨s, trail, h⟩
  exact hfiles

/-- A session that was created has started from its files, all of which hold acceptable programs; nothing was
recorded meanwhile, and messages are saved if the output is a document. -/
theorem startedFrom_of_create {env : Environment} {paths : List Text} {options : Options}
    {sink : Diagnostic.Sink} {s : Session} {trail : Trail}
    (h : create env paths options sink = (.ok s, trail)) :
    ∃ setup, Setup.prepare env options = .ok setup ∧ s.StartedFrom env paths options setup.settings ∧
      (∀ path ∈ paths.eraseDups, fileFaults env.files path = []) ∧ trail.sink = sink ∧
      trail.journal.saves = (s.format == .json) := by
  obtain ⟨setup, -, hprepare, hstart⟩ := exists_setup_of_create h
  obtain ⟨hdecides, hafter⟩ := start_checks env paths options setup ⟨setup.journal, sink⟩
  have hfaults := hdecides.isOk_iff.1 ⟨s, congrArg Prod.fst hstart⟩
  rw [hstart] at hdecides hafter
  have hstarted := hdecides.of_ok
  refine ⟨setup, hprepare, hstarted, ?_, ?_, ?_⟩
  · exact List.flatMap_eq_nil_iff.1 (List.append_eq_nil_iff.1 hfaults).1
  · rw [hafter.sink_eq, Diagnostic.Sink.recordAll_nil]
  · rw [hafter.saves_eq, saves_of_prepare hprepare, hstarted.format_eq]

/-- Units that were loaded from files without faults hold acceptable programs. -/
theorem exists_programs {fs : Files} {paths : List Text} {units : List CompilationUnit}
    (hunits : List.Forall₂ (IsLoadedFrom fs) paths units) (hfiles : ∀ path ∈ paths, fileFaults fs path = []) :
    ∃ programs, List.Forall₂ CompilationUnit.Represents units programs ∧
      List.Forall₂ (IsProgramAt fs) paths programs ∧ ∀ d ∈ programs, d.Acceptable := by
  induction hunits with
  | nil => exact ⟨[], .nil, .nil, by simp⟩
  | cons hcu _ ih =>
      obtain ⟨d, hd, hrepresents⟩ := hcu
      obtain ⟨programs, hunits, hpaths, haccept⟩ :=
        ih fun path hpath => hfiles path (List.mem_cons_of_mem _ hpath)
      have hdfaults : d.faults = [] := hd.fileFaults_eq ▸ hfiles _ List.mem_cons_self
      refine ⟨d :: programs, .cons hrepresents hunits, .cons hd hpaths, ?_⟩
      rw [List.forall_mem_cons]
      exact ⟨ProgramDocument.faults_eq_nil_iff.1 hdfaults, haccept⟩

/-- If only built-in passes are enabled, then the session is about the programs in its files. -/
theorem StartedFrom.exists_isAbout {s : Session} {env : Environment} {paths : List Text} {options : Options}
    {settings : Settings} (h : s.StartedFrom env paths options settings)
    (hfiles : ∀ path ∈ paths.eraseDups, fileFaults env.files path = [])
    (hnames : ∀ name ∈ s.settings.passes, name ∈ builtInPassNames) :
    ∃ programs, s.IsAbout s.settings programs ∧
      List.Forall₂ (IsProgramAt env.files) paths.eraseDups programs ∧ ∀ d ∈ programs, d.Acceptable := by
  obtain ⟨programs, hunits, hpaths, haccept⟩ := exists_programs h.units hfiles
  refine ⟨programs, ⟨rfl, ?_, hunits⟩, hpaths, haccept⟩
  rw [h.settings_eq] at hnames ⊢
  exact eq_map_of_areListed h.passes hnames

end Session

end StorageFlow
