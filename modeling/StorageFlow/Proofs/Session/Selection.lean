/-
# StorageFlow.Proofs.Session.Selection — which passes a session executes.

Passes are named on the command line, or in the configuration file, or not at all, and the names are checked in two
places: those of the command line when the settings are loaded, those of the file when the passes are looked up.
Whoever named them, the faults are the same: each enabled name that is no name of a built-in pass is one, in the order
of the names (`create_decides`).  So a session has a pass for every enabled name, or is not created at all.
-/
import StorageFlow.Proofs.Session.Execution

namespace StorageFlow

/-! ## Enabled names -/

/-- The names of the passes to execute: those of the command line that are not empty; if no names are given there, those
of the configuration file; if none are given there either, all there are. -/
def Settings.Document.enabledNames (d : Settings.Document) (named : Option (List Text)) : List Text :=
  match named with
  | some names => names.filter fun name => !name.isEmpty
  | none => d.passes.getD builtInPassNames

/-- The names that no built-in pass has. -/
def unknownNames (names : List Text) : List Text := names.filter fun name => !builtInPassNames.contains name

/-- A mistake for each unknown name. -/
def unknownFaults (mistake : Text → Mistake) (names : List Text) : List Failure :=
  (unknownNames names).map fun name => .mistake (mistake name)

/-- How an unknown name is rejected, depending on whether passes are named on the command line. -/
def Options.rejection (options : Options) : Text → Mistake :=
  if options.passes.isSome then .unknownPass else .passNotFound

theorem Options.message_rejection (options : Options) (name : Text) :
    (Failure.mistake (options.rejection name)).message = "Execution Error:\n" ++
      if options.passes.isSome then "Cannot find built-in pass: " ++ name
      else "Built-in pass " ++ name ++ " not found" := by
  unfold rejection
  split
  · rfl
  · rfl

section UnknownNames

variable {mistake : Text → Mistake} {names : List Text} {name : Text}

theorem unknownNames_eq_nil_iff : unknownNames names = [] ↔ ∀ name ∈ names, name ∈ builtInPassNames := by
  simp [unknownNames, List.filter_eq_nil_iff]

theorem unknownFaults_eq_nil_iff : unknownFaults mistake names = [] ↔ ∀ name ∈ names, name ∈ builtInPassNames := by
  rw [unknownFaults, List.map_eq_nil_iff, unknownNames_eq_nil_iff]

/-- The first mistake is for the first unknown name, which comes after known names only. -/
theorem head?_unknownFaults {known rest : List Text} (hknown : ∀ other ∈ known, other ∈ builtInPassNames)
    (hname : name ∉ builtInPassNames) :
    (unknownFaults mistake (known ++ name :: rest)).head? = some (.mistake (mistake name)) := by
  have hnone : unknownNames known = [] := unknownNames_eq_nil_iff.2 hknown
  rw [unknownNames] at hnone
  rw [unknownFaults, unknownNames, List.filter_append, hnone, List.nil_append,
    List.filter_cons_of_pos (by simpa using hname), List.map_cons, List.head?_cons]

end UnknownNames

/-! ## Names from the command line -/

namespace Settings

variable {fs : Files} {path : Option Text} {j : Json} {d : Document}

/-- What is wrong with names from the command line.  Those of the file are not looked at when settings are loaded. -/
def namedFaults (named : Option (List Text)) (d : Document) : List Failure :=
  if named.isSome then unknownFaults .unknownPass (d.enabledNames named) else []

theorem exists_mistake_of_mem_namedFaults {named : Option (List Text)} {failure : Failure}
    (h : failure ∈ namedFaults named d) : ∃ mistake, failure = .mistake mistake := by
  cases named with
  | none => exact absurd h List.not_mem_nil
  | some names =>
      obtain ⟨name, -, rfl⟩ := List.mem_map.1 h
      exact ⟨_, rfl⟩

theorem enabledPasses_decides (named : Option (List Text)) (d : Document) :
    Decides (· = d.enabledNames named) (enabledPasses named d) (namedFaults named d) := by
  cases named with
  | none => exact .ok rfl
  | some names =>
      have hhead (enabled : List Text) :
          (enabled.find? fun name => !builtInPassNames.contains name) = (unknownNames enabled).head? :=
        List.head?_filter.symm
      show Decides (· = names.filter _) (checkNames names) (unknownFaults .unknownPass (names.filter _))
      unfold checkNames unknownFaults
      dsimp only
      rw [hhead]
      cases unknownNames (names.filter fun name => !name.isEmpty) with
      | nil => exact .ok rfl
      | cons name others => exact .error

theorem load_decides (hsource : source fs path = .ok j) (hdocument : (document (some j)).toExcept = .ok d)
    (named : Option (List Text)) :
    Decides (fun s => s.passes = d.enabledNames named) (load fs path named) (namedFaults named d) := by
  rw [load, hsource, ok_bind, hdocument]
  exact (enabledPasses_decides named d).bind_of_exists fun passes hpasses => ⟨_, rfl, hpasses⟩

end Settings

theorem Setup.prepare_decides {env : Environment} {options : Options} {j : Json} {d : Settings.Document}
    (hsource : Settings.source env.files options.config = .ok j)
    (hdocument : (Settings.document (some j)).toExcept = .ok d) :
    Decides (fun setup => setup.settings.passes = d.enabledNames options.passes) (prepare env options)
      (Settings.namedFaults options.passes d) := by
  have hload := Settings.load_decides hsource hdocument options.passes
  unfold prepare
  generalize Settings.load env.files options.config options.passes = loaded at hload
  generalize hfaults : Settings.namedFaults options.passes d = faults at hload
  cases hload with
  | ok hpasses => exact .ok hpasses
  | error =>
      -- A mistake is no mismatch, so it is reported as it is.
      have hmem := hfaults ▸ List.mem_cons_self
      obtain ⟨mistake, rfl⟩ := Settings.exists_mistake_of_mem_namedFaults hmem
      exact .error

/-! ## Names in general -/

namespace Pass

variable {names : List Text}

/-- Behind a name that is not taken there is a built-in pass or nothing. -/
theorem nameFaults_of_not_mem_taken (order : Order) {name : Text} (hname : name ∉ builtInPassNames)
    (h : name ∉ taken.map Prod.fst) : nameFaults order name = [.mistake (.passNotFound name)] := by
  have hfind : Table.find? name taken = none := by
    rw [Option.eq_none_iff_forall_ne_some]
    exact fun entry hentry => h (List.mem_map_of_mem (Table.mem_of_find?_eq_some hentry))
  rw [nameFaults, listing_of_not_mem_builtInPassNames order hname, hfind]
  rfl

theorem nameFaults_of_mem_builtInPassNames (order : Order) {name : Text} (hname : name ∈ builtInPassNames) :
    nameFaults order name = [] :=
  nameFaults_eq_nil_iff.2 ⟨_, listing_of_mem_builtInPassNames order hname⟩

theorem flatMap_nameFaults (order : Order) (h : ∀ name ∈ names, name ∈ builtInPassNames ∨ name ∉ taken.map Prod.fst) :
    names.flatMap (nameFaults order) = unknownFaults .passNotFound names := by
  induction names with
  | nil => rfl
  | cons name names ih =>
      rw [List.forall_mem_cons] at h
      rw [List.flatMap_cons, ih h.2, unknownFaults, unknownFaults, unknownNames, unknownNames]
      by_cases hname : name ∈ builtInPassNames
      · rw [nameFaults_of_mem_builtInPassNames order hname, List.filter_cons_of_neg (by simpa using hname)]
        rfl
      · rw [nameFaults_of_not_mem_taken order hname (h.1.resolve_left hname),
          List.filter_cons_of_pos (by simpa using hname)]
        rfl

/-- A built-in pass has the name that it was found by. -/
theorem id_of_builtIn? {order : Order} {name : Text} {pass : Pass} (h : builtIn? order name = some pass) :
    pass.id = some name := by
  unfold builtIn? at h
  split at h
  · next hname =>
    obtain rfl := Option.some.inj h
    exact congrArg some hname.symm
  · cases h

theorem AreListed.builtIn {order : Order} {passes : List Pass} (h : AreListed order names passes)
    (hnames : ∀ name ∈ names, name ∈ builtInPassNames) :
    List.Forall₂ (fun name pass => builtIn? order name = some pass) names passes := by
  induction h with
  | nil => exact .nil
  | @cons name pass names passes hpass _ ih =>
      rw [List.forall_mem_cons] at hnames
      obtain ⟨found, hfound⟩ := Option.isSome_iff_exists.1 ((isSome_builtIn?_iff order name).2 hnames.1)
      rw [listing, hfound] at hpass
      obtain rfl : found = pass := Listing.pass.inj hpass
      exact .cons hfound (ih hnames.2)

theorem map_id_of_forall₂ {order : Order} {passes : List Pass}
    (h : List.Forall₂ (fun name pass => builtIn? order name = some pass) names passes) :
    passes.map Pass.id = names.map some := by
  induction h with
  | nil => rfl
  | cons hpass _ ih => rw [List.map_cons, List.map_cons, id_of_builtIn? hpass, ih]

end Pass

namespace Session

open Program

variable {env : Environment} {paths : List Text} {options : Options} {sink : Diagnostic.Sink} {j : Json}
  {d : Settings.Document}

/-- Without a contradiction in the options, a session is created by setting it up and starting it. -/
theorem create_fst (hoptions : checkOptions options = .ok ()) :
    (create env paths options sink).1 =
      Setup.prepare env options >>= fun setup => (start env paths options setup ⟨setup.journal, sink⟩).1 := by
  cases hsetup : Setup.prepare env options with
  | ok setup => exact congrArg Prod.fst (create_eq_start hoptions hsetup)
  | error failure =>
      have hprepare : ((checkOptions options).bind fun _ => Setup.prepare env options) = .error failure := by
        rw [hoptions]
        exact hsetup
      rw [create, hprepare]
      rfl

/-- The names and the passes of a session are those that are enabled. -/
def Enables (s : Session) (names : List Text) : Prop :=
  s.settings.passes = names ∧ Pass.AreListed s.settings.worklistOrder names s.passes

theorem start_decides (options : Options) (sink : Diagnostic.Sink) {setup : Setup}
    (hfiles : ∀ path ∈ paths, fileFaults env.files path = [])
    (hnames : ∀ name ∈ setup.settings.passes, name ∈ builtInPassNames ∨ name ∉ Pass.taken.map Prod.fst) :
    Decides (fun s => s.Enables setup.settings.passes) (start env paths options setup ⟨setup.journal, sink⟩).1
      (unknownFaults .passNotFound setup.settings.passes) := by
  have hdecides := (start_checks env paths options setup ⟨setup.journal, sink⟩).1
  have hload : paths.eraseDups.flatMap (fileFaults env.files) = [] :=
    List.flatMap_eq_nil_iff.2 fun path hpath => hfiles path (List.mem_eraseDups.1 hpath)
  rw [hload, List.nil_append, Pass.flatMap_nameFaults _ hnames] at hdecides
  refine hdecides.imp fun s hs => ⟨by rw [hs.settings_eq], ?_⟩
  rw [hs.settings_eq]
  exact hs.passes

/-- **Creation fails with the first unknown name**, whoever named it. -/
theorem create_decides (hoptions : ¬ (options.isVerbose = true ∧ options.isQuiet = true))
    (hsource : Settings.source env.files options.config = .ok j)
    (hdocument : (Settings.document (some j)).toExcept = .ok d)
    (hfile : options.passes = none → ∀ name ∈ d.passes.getD [], name ∉ Pass.taken.map Prod.fst)
    (hfiles : ∀ path ∈ paths, fileFaults env.files path = []) :
    Decides (fun s => s.Enables (d.enabledNames options.passes)) (create env paths options sink).1
      (unknownFaults options.rejection (d.enabledNames options.passes)) := by
  have hprepare := Setup.prepare_decides hsource hdocument
  rw [create_fst (checkOptions_eq_ok hoptions)]
  cases hnamed : options.passes with
  | none =>
      have hreject : options.rejection = .passNotFound := by simp [Options.rejection, hnamed]
      rw [hnamed] at hprepare
      rw [hreject, ← List.nil_append (unknownFaults _ _)]
      refine hprepare.bind fun setup hpasses => ?_
      rw [← hpasses]
      refine start_decides options sink hfiles fun name hname => ?_
      rw [hpasses] at hname
      cases hlisted : d.passes with
      | none =>
          rw [Settings.Document.enabledNames, hlisted] at hname
          exact .inl hname
      | some names =>
          rw [Settings.Document.enabledNames, hlisted] at hname
          rw [hlisted] at hfile
          exact .inr (hfile hnamed name hname)
  | some names =>
      have hreject : options.rejection = .unknownPass := by simp [Options.rejection, hnamed]
      rw [hnamed] at hprepare
      rw [hreject, ← List.append_nil (unknownFaults _ _)]
      -- A run that was set up knows all names, so there is nothing to object to when they are looked up.
      refine hprepare.and_eq.bind fun setup hsetup => ?_
      obtain ⟨hpasses, hsetup⟩ := hsetup
      have hknown := unknownFaults_eq_nil_iff.1 (hprepare.isOk_iff.1 ⟨setup, hsetup⟩)
      rw [← hpasses] at hknown ⊢
      have hstart := start_decides options sink hfiles fun name hname => .inl (hknown name hname)
      rwa [unknownFaults_eq_nil_iff.2 hknown] at hstart

/-- **No requested pass is skipped.**  Let passes be named on the command line, else in the configuration file, else not
at all; no name of the file is one of those that every table of names has of its own.  If the options do not contradict
each other, the configuration file is valid and the program files can be loaded, then it depends on the enabled names
alone whether a session is created.  It is not if and only if one of them is no name of a built-in pass; the failure is
then a mistake of the user, and tells the first such name.  Otherwise the passes of the session are the built-in passes
with exactly the enabled names, in their order and as often as they are named. -/
theorem create_selects (env : Environment) (paths : List Text) (options : Options) (sink : Diagnostic.Sink) (j : Json)
    (d : Settings.Document) (hoptions : ¬ (options.isVerbose = true ∧ options.isQuiet = true))
    (hsource : Settings.source env.files options.config = .ok j)
    (hdocument : (Settings.document (some j)).toExcept = .ok d)
    (hfile : options.passes = none → ∀ name ∈ d.passes.getD [], name ∉ Pass.taken.map Prod.fst)
    (hload : ∀ path ∈ paths, ∃ trail cu, (loadFile env.files path trail).1 = .ok cu) :
    let enabled := d.enabledNames options.passes
    ((∃ failure after, create env paths options sink = (.error failure, after)) ↔
      ∃ name ∈ enabled, name ∉ builtInPassNames) ∧
    (∀ known name rest, enabled = known ++ name :: rest → (∀ other ∈ known, other ∈ builtInPassNames) →
      name ∉ builtInPassNames →
      ∃ after, create env paths options sink = (.error (.mistake (options.rejection name)), after) ∧
        (Failure.mistake (options.rejection name)).message = "Execution Error:\n" ++
          if options.passes.isSome then "Cannot find built-in pass: " ++ name
          else "Built-in pass " ++ name ++ " not found") ∧
    ((∀ name ∈ enabled, name ∈ builtInPassNames) →
      ∃ s created, create env paths options sink = (.ok s, created) ∧ s.settings.passes = enabled ∧
        List.Forall₂ (fun name pass => Pass.builtIn? s.settings.worklistOrder name = some pass) enabled s.passes ∧
        s.passes.map Pass.id = enabled.map some) := by
  intro enabled
  have hfiles : ∀ path ∈ paths, fileFaults env.files path = [] := by
    intro path hpath
    obtain ⟨trail, hloaded⟩ := hload path hpath
    exact (loadFile_checks env.files path trail).1.isOk_iff.1 hloaded
  have hdecides : Decides (fun s => s.Enables enabled) (create env paths options sink).1
      (unknownFaults options.rejection enabled) := create_decides hoptions hsource hdocument hfile hfiles
  have hcreated := hdecides.isOk_iff.trans unknownFaults_eq_nil_iff
  refine ⟨⟨?_, ?_⟩, ?_, ?_⟩
  · rintro ⟨failure, after, hcreate⟩
    by_contra hnone
    obtain ⟨s, hs⟩ := hcreated.2 fun name hname => by_contra fun hunknown => hnone ⟨name, hname, hunknown⟩
    rw [hcreate] at hs
    cases hs
  · rintro ⟨name, hname, hunknown⟩
    rcases hcreate : create env paths options sink with ⟨failure | s, after⟩
    · exact ⟨failure, after, rfl⟩
    · exact absurd (hcreated.1 ⟨s, congrArg Prod.fst hcreate⟩ name hname) hunknown
  · intro known name rest henabled hknown hunknown
    rw [henabled] at hdecides
    have herror := hdecides.error_iff.2 (head?_unknownFaults hknown hunknown)
    exact ⟨_, Prod.ext herror rfl, options.message_rejection name⟩
  · intro hall
    obtain ⟨s, hs⟩ := hcreated.2 hall
    rw [hs] at hdecides
    obtain ⟨hnames, hlisted⟩ := hdecides.of_ok
    have hbuiltIn := hlisted.builtIn hall
    exact ⟨s, _, Prod.ext hs rfl, hnames, hbuiltIn, Pass.map_id_of_forall₂ hbuiltIn⟩

/-- A program, and a configuration file that asks for two passes that do not exist. -/
def wishFiles : Files :=
  .ofList [] [(ledgerPath, .text ledgerText),
    ("wish.json", .text ("\x7b\"passes\":[\x7b\"className\":\"UninitializedStorageAccess\"\x7d," ++
      "\x7b\"className\":\"First\"\x7d,\x7b\"className\":\"Second\"\x7d]\x7d"))]

/-- The first of the missing passes is told, unless the command line names other passes. -/
theorem wish_create_selects :
    let env : Environment := ⟨wishFiles, ⟨0, 0, 0, 0⟩, false⟩
    let options : Options := { Options.none with config := some "wish.json" }
    let names : List Text := [Pass.UninitializedAccess.id, "", Pass.UninitializedAccess.id]
    (∃ after, create env [ledgerPath] options .empty = (.error (.mistake (.passNotFound "First")), after)) ∧
    ∃ s created, create env [ledgerPath] { options with passes := some names } .empty = (.ok s, created) ∧
      s.passes.map Pass.id = [some Pass.UninitializedAccess.id, some Pass.UninitializedAccess.id] := by
  intro env options names
  let d : Settings.Document := ⟨some [Pass.UninitializedAccess.id, "First", "Second"], .sink, .lifo, .ordinary⟩
  have hread : ((Settings.source wishFiles (some "wish.json")).toOption.map
      fun j => (Settings.document (some j)).toExcept) = some (.ok d) := by decide +kernel
  obtain ⟨j, hsource, hdocument⟩ := Option.map_eq_some_iff.1 hread
  have hload : ∀ path ∈ [ledgerPath], ∃ trail cu, (loadFile env.files path trail).1 = .ok cu := by
    have hfaults : (fileFaults wishFiles ledgerPath).isEmpty = true := by decide +kernel
    intro path hpath
    rw [List.mem_singleton.1 hpath]
    exact ⟨⟨noJournal, .empty⟩, (loadFile_checks _ _ _).1.isOk_iff.2 (List.isEmpty_iff.1 hfaults)⟩
  obtain ⟨-, hrejected, -⟩ := create_selects env [ledgerPath] options .empty j d (by decide) (eq_ok_of_toOption hsource)
    hdocument (fun _ => by decide) hload
  obtain ⟨-, -, hcreated⟩ := create_selects env [ledgerPath] { options with passes := some names } .empty j d
    (by decide) (eq_ok_of_toOption hsource) hdocument (fun hnone => absurd hnone (by simp)) hload
  obtain ⟨after, hcreate, -⟩ := hrejected [Pass.UninitializedAccess.id] "First" ["Second"] rfl (by decide) (by decide)
  obtain ⟨s, created, hcreate', -, -, hids⟩ := hcreated (by decide)
  exact ⟨⟨after, hcreate⟩, s, created, hcreate', hids⟩

end Session

end StorageFlow
