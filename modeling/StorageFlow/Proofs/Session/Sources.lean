/-
# StorageFlow.Proofs.Session.Sources — which texts diagnostics are shown with.

A diagnostic is about a function, and the function stands in a source unit that may have a text.  When diagnostics are
shown, however, texts are looked up by path, and of all source units with one path the last one that has a text counts,
be it in the same program or in another one (`get?_contents`).  So what is shown is right if source units with one path
agree on their text, and may be wrong otherwise.

Main statement: `text_of_execute` — the end of a run as a text, diagnostic by diagnostic.
-/
import StorageFlow.Proofs.Analysis.Reporting
import StorageFlow.Proofs.Diagnostic.Rendering
import StorageFlow.Proofs.Program.Conversion
import StorageFlow.Proofs.Session.Verdict

namespace StorageFlow

/-! ## Tables -/

namespace Table

variable {κ ν : Type} [DecidableEq κ] {k : κ}

/-- The last value that is listed for a key. -/
def last? (k : κ) (pairs : List (κ × ν)) : Option ν :=
  (pairs.filterMap fun p => if p.1 = k then some p.2 else none).getLast?

theorem last?_cons (p : κ × ν) (pairs : List (κ × ν)) :
    last? k (p :: pairs) = (last? k pairs).or (if p.1 = k then some p.2 else none) := by
  have hcons : p :: pairs = [p] ++ pairs := rfl
  rw [last?, hcons, List.filterMap_append, List.getLast?_append, last?]
  by_cases h : p.1 = k
  · simp [h]
  · simp [h]

theorem get?_foldl_set (pairs : List (κ × ν)) (t : Table κ ν) :
    (pairs.foldl (fun t p => t.set p.1 p.2) t).get? k = (last? k pairs).or (t.get? k) := by
  induction pairs generalizing t with
  | nil => rfl
  | cons p pairs ih =>
      rw [List.foldl_cons, ih, get?_set, last?_cons, Option.or_assoc]
      by_cases h : p.1 = k
      · simp [h]
      · simp [h]

theorem get?_ofList (pairs : List (κ × ν)) : (ofList pairs).get? k = last? k pairs := by
  rw [ofList, get?_foldl_set, get?_empty, Option.or_none]

/-- In a table the first value of a key is the last one. -/
theorem last?_entries (t : Table κ ν) : last? k t.entries = t.get? k := by
  obtain ⟨entries, hnodup⟩ := t
  show last? k entries = find? k entries
  induction entries with
  | nil => rfl
  | cons e entries ih =>
      rw [List.map_cons, List.nodup_cons] at hnodup
      rw [last?_cons, ih hnodup.2, find?]
      split
      · next hkey =>
        have hnone : find? k entries = none := by
          by_contra hsome
          obtain ⟨v, hv⟩ := Option.ne_none_iff_exists'.1 hsome
          exact hnodup.1 (hkey ▸ List.mem_map_of_mem (mem_of_find?_eq_some hv))
        rw [hnone, Option.none_or]
      · exact Option.or_none

/-- The second table wins. -/
theorem get?_merge (t u : Table κ ν) : (t.merge u).get? k = (u.get? k).or (t.get? k) := by
  rw [merge, get?_foldl_set, last?_entries]

end Table

theorem exists_mem_of_forall₂ {α β : Type} {R : α → β → Prop} {as : List α} {bs : List β}
    (h : List.Forall₂ R as bs) {a : α} (ha : a ∈ as) : ∃ b ∈ bs, R a b := by
  induction h with
  | nil => exact absurd ha List.not_mem_nil
  | cons hab _ ih =>
      rcases List.mem_cons.1 ha with rfl | ha
      · exact ⟨_, List.mem_cons_self, hab⟩
      · obtain ⟨b, hb, hr⟩ := ih ha
        exact ⟨b, List.mem_cons_of_mem _ hb, hr⟩

open Program

/-! ## Findings in source units -/

namespace Program

open Pass.UninitializedAccess (diagnosticFor)

/-- What is found in the functions with bodies of a source unit. -/
def CompilationUnit.FindsIn (cu : CompilationUnit) (order : Order) (source : SourceUnit) (ds : List Diagnostic) :
    Prop :=
  ∃ functions reports, implementedFunctions [source] = .ok functions ∧
    List.Forall₂ (fun f accesses => ∃ flow r, cu.flowOf f = .ok flow ∧ Analysis.run flow order = .ok r ∧
      r.accesses = accesses) functions reports ∧
    ds = reports.flatten.map diagnosticFor

theorem CompilationUnit.FindsIn.unique {cu : CompilationUnit} {order : Order} {source : SourceUnit}
    {ds es : List Diagnostic} (hds : cu.FindsIn order source ds) (hes : cu.FindsIn order source es) : ds = es := by
  obtain ⟨functions, reports, hfunctions, hreports, rfl⟩ := hds
  obtain ⟨functions', reports', hfunctions', hreports', rfl⟩ := hes
  obtain rfl : functions = functions' := Except.ok.inj (hfunctions.symm.trans hfunctions')
  have hunique : reports = reports' := by
    refine List.right_unique_forall₂' (fun f accesses accesses' => ?_) hreports hreports'
    rintro ⟨flow, r, hflow, hrun, rfl⟩ ⟨flow', r', hflow', hrun', rfl⟩
    obtain rfl : flow = flow' := Except.ok.inj (hflow.symm.trans hflow')
    obtain rfl : r = r' := Except.ok.inj (hrun.symm.trans hrun')
    rfl
  rw [hunique]

/-- The functions of a source unit that have bodies. -/
def SourceDocument.bodies (s : SourceDocument) : List PlacedFunction :=
  s.functions.filter fun f => f.function.implemented

theorem ProgramDocument.bodies_eq (d : ProgramDocument) : d.bodies = d.sources.flatMap SourceDocument.bodies := by
  rw [ProgramDocument.bodies, ProgramDocument.functions, List.filter_flatMap]
  rfl

theorem CompilationUnit.Represents.findsIn {cu : CompilationUnit} {d : ProgramDocument} {order : Order}
    {accesses : PlacedFunction → List Occurrence} (h : cu.Represents d)
    (haccesses : ∀ f ∈ d.bodies, f.Reports order (accesses f)) {s : SourceDocument} (hs : s ∈ d.sources) :
    cu.FindsIn order s.toSourceUnit (s.bodies.flatMap fun f => (accesses f).map diagnosticFor) := by
  refine ⟨s.bodies.map PlacedFunction.definition, s.bodies.map accesses, ?_, ?_, ?_⟩
  · have hfunctions := implementedFunctions_toSourceUnit [s]
    rwa [List.map_singleton, List.flatMap_singleton] at hfunctions
  · rw [List.forall₂_map_left_iff, List.forall₂_map_right_iff, List.forall₂_same]
    intro f hf
    have hbody : f ∈ d.bodies := d.bodies_eq ▸ List.mem_flatMap.2 ⟨s, hs, hf⟩
    obtain ⟨flow, r, hflow, hrun, haccess⟩ := haccesses f hbody
    exact ⟨flow, r, h.flowOf_eq (List.mem_of_mem_filter hbody) hflow, hrun, haccess⟩
  · rw [List.map_flatten, List.map_map, List.flatMap]
    rfl

/-- All places of what is found in a function are in its file. -/
theorem PlacedFunction.Reports.inFile {f : PlacedFunction} {order : Order} {accesses : List Occurrence}
    (h : f.Reports order accesses) {o : Occurrence} (ho : o ∈ accesses) : (diagnosticFor o).InFile f.file := by
  obtain ⟨flow, r, hflow, hrun, rfl⟩ := h
  obtain ⟨d, known, -, hconverts⟩ := hflow.exists_convertsTo
  have hmem := Analysis.mem_allOccurrences_of_mem_accesses hflow.hasKnownKinds hrun ho
  obtain ⟨hlocation, hsubject⟩ := hconverts.file_eq hmem
  exact ⟨hlocation, List.forall_mem_singleton.2 hsubject⟩

/-- What is found in a source unit is in its file. -/
theorem SourceDocument.inFile_of_mem {s : SourceDocument} {order : Order}
    {accesses : PlacedFunction → List Occurrence} (haccesses : ∀ f ∈ s.bodies, f.Reports order (accesses f))
    {d : Diagnostic} (hd : d ∈ s.bodies.flatMap fun f => (accesses f).map diagnosticFor) : d.InFile s.path := by
  obtain ⟨f, hf, hd⟩ := List.mem_flatMap.1 hd
  obtain ⟨o, ho, rfl⟩ := List.mem_map.1 hd
  have hfile : f.file = s.path := by
    obtain ⟨function, -, rfl⟩ := List.mem_map.1 (List.mem_of_mem_filter hf)
    rfl
  exact hfile ▸ (haccesses f hf).inFile ho

end Program

namespace Session

variable {s : Session}

/-! ## Texts by path -/

/-- The source units of all programs. -/
def sources (s : Session) : List SourceUnit := s.units.flatMap CompilationUnit.sources

/-- The text that the last source unit with a path has, of those that have one. -/
def lastText (s : Session) (path : Text) : Option Text :=
  (s.sources.filterMap fun source => if source.path = path then source.content else none).getLast?

theorem last?_textOf (sources : List SourceUnit) (path : Text) :
    Table.last? path (sources.filterMap CompilationUnit.textOf) =
      (sources.filterMap fun source => if source.path = path then source.content else none).getLast? := by
  rw [Table.last?, List.filterMap_filterMap]
  congr 2
  funext source
  unfold CompilationUnit.textOf
  cases source.content with
  | none => simp
  | some content => rfl

/-- **Texts are looked up by path, and the last one counts.** -/
theorem get?_contents (s : Session) (path : Text) : s.contents.get? path = s.lastText path := by
  have hfold (units : List CompilationUnit) (c : Contents) :
      (units.foldl (fun c cu => c.merge cu.contents) c).get? path =
        ((units.flatMap CompilationUnit.sources).filterMap fun source =>
          if source.path = path then source.content else none).getLast?.or (c.get? path) := by
    induction units generalizing c with
    | nil => rfl
    | cons cu units ih =>
        rw [List.foldl_cons, ih, Table.get?_merge, CompilationUnit.contents, Table.get?_ofList, last?_textOf,
          List.flatMap_cons, List.filterMap_append, List.getLast?_append, Option.or_assoc]
  rw [contents, hfold, Table.get?_empty, Option.or_none, lastText, sources]

/-- If source units with one path agree on their text, then the last one is the own one. -/
theorem lastText_eq {source : SourceUnit} (hsource : source ∈ s.sources)
    (hagree : ∀ other ∈ s.sources, other.path = source.path → other.content = source.content) :
    s.lastText source.path = source.content := by
  cases hlast : s.lastText source.path with
  | none =>
      rw [lastText, List.getLast?_eq_none_iff, List.filterMap_eq_nil_iff] at hlast
      have hnone := hlast source hsource
      rw [if_pos rfl] at hnone
      exact hnone.symm
  | some content =>
      obtain ⟨other, hother, hcontent⟩ := List.mem_filterMap.1 (List.mem_of_getLast? hlast)
      split at hcontent
      · next hpath => rw [← hcontent, hagree other hother hpath]
      · exact absurd hcontent (by simp)

/-! ## Diagnostics and their source units -/

/-- For each source unit, what is found in it. -/
def Attributes (s : Session) (foundIn : CompilationUnit → SourceUnit → List Diagnostic) : Prop :=
  ∀ cu ∈ s.units, ∀ source ∈ cu.sources, cu.FindsIn s.settings.worklistOrder source (foundIn cu source)

/-- All that is told, each with the source unit that it was found in: program by program, as often as there are passes,
then source unit by source unit. -/
def attributed (s : Session) (foundIn : CompilationUnit → SourceUnit → List Diagnostic) :
    List (SourceUnit × Diagnostic) :=
  s.units.flatMap fun cu => s.settings.passes.flatMap fun _ => cu.sources.flatMap fun source =>
    (foundIn cu source).map (Prod.mk source)

/-- What is told was found in a source unit of a program. -/
theorem exists_foundIn_of_mem {foundIn : CompilationUnit → SourceUnit → List Diagnostic}
    {part : SourceUnit × Diagnostic} (hpart : part ∈ s.attributed foundIn) :
    ∃ cu ∈ s.units, part.1 ∈ cu.sources ∧ part.2 ∈ foundIn cu part.1 := by
  obtain ⟨cu, hcu, hpart⟩ := List.mem_flatMap.1 hpart
  obtain ⟨_, -, hpart⟩ := List.mem_flatMap.1 hpart
  obtain ⟨source, hsource, hpart⟩ := List.mem_flatMap.1 hpart
  obtain ⟨d, hd, rfl⟩ := List.mem_map.1 hpart
  exact ⟨cu, hcu, hsource, hd⟩

theorem fst_mem_sources {foundIn : CompilationUnit → SourceUnit → List Diagnostic} {part : SourceUnit × Diagnostic}
    (hpart : part ∈ s.attributed foundIn) : part.1 ∈ s.sources := by
  obtain ⟨cu, hcu, hsource, -⟩ := exists_foundIn_of_mem hpart
  exact List.mem_flatMap.2 ⟨cu, hcu, hsource⟩

theorem exists_attributes {programs : List ProgramDocument} {accesses : PlacedFunction → List Occurrence}
    (hunits : List.Forall₂ CompilationUnit.Represents s.units programs)
    (haccesses : ∀ d ∈ programs, ∀ f ∈ d.bodies, f.Reports s.settings.worklistOrder (accesses f)) :
    ∃ foundIn, s.Attributes foundIn := by
  have hfound : ∀ cu : CompilationUnit, ∀ source : SourceUnit, ∃ ds, cu ∈ s.units → source ∈ cu.sources →
      cu.FindsIn s.settings.worklistOrder source ds := by
    intro cu source
    by_cases hmem : cu ∈ s.units ∧ source ∈ cu.sources
    · obtain ⟨hcu, hsource⟩ := hmem
      obtain ⟨d, hd, hrepresents⟩ := exists_mem_of_forall₂ hunits hcu
      rw [hrepresents.sources_eq] at hsource
      obtain ⟨document, hdocument, rfl⟩ := List.mem_map.1 hsource
      exact ⟨_, fun _ _ => hrepresents.findsIn (haccesses d hd) hdocument⟩
    · exact ⟨[], fun hcu hsource => absurd ⟨hcu, hsource⟩ hmem⟩
  choose foundIn hfoundIn using hfound
  exact ⟨foundIn, fun cu hcu source hsource => hfoundIn cu source hcu hsource⟩

/-- What is found in the source units of a program is what is found in the program. -/
theorem map_snd_foundIn {cu : CompilationUnit} {d : ProgramDocument} {order : Order}
    {foundIn : SourceUnit → List Diagnostic} {accesses : PlacedFunction → List Occurrence} (h : cu.Represents d)
    (haccesses : ∀ f ∈ d.bodies, f.Reports order (accesses f))
    (hfound : ∀ source ∈ cu.sources, cu.FindsIn order source (foundIn source)) {name : Text}
    (hname : name ∈ builtInPassNames) :
    (cu.sources.flatMap fun source => (foundIn source).map (Prod.mk source)).map Prod.snd =
      d.bodies.flatMap fun f => (accesses f).map (finding name) := by
  rw [h.sources_eq] at hfound ⊢
  rw [List.map_flatMap, List.flatMap_map, d.bodies_eq, List.flatMap_assoc]
  refine List.flatMap_congr fun source hsource => ?_
  have hown := (hfound _ (List.mem_map_of_mem hsource)).unique (h.findsIn haccesses hsource)
  have hnamed : Pass.UninitializedAccess.diagnosticFor = finding name := funext (diagnosticFor_eq_finding hname)
  rw [hown, List.map_map, hnamed]
  exact List.map_id _

theorem map_snd_attributed {programs : List ProgramDocument} {accesses : PlacedFunction → List Occurrence}
    {foundIn : CompilationUnit → SourceUnit → List Diagnostic}
    (hunits : List.Forall₂ CompilationUnit.Represents s.units programs)
    (haccesses : ∀ d ∈ programs, ∀ f ∈ d.bodies, f.Reports s.settings.worklistOrder (accesses f))
    (hnames : ∀ name ∈ s.settings.passes, name ∈ builtInPassNames) (hfound : s.Attributes foundIn) :
    (s.attributed foundIn).map Prod.snd = programs.flatMap fun d => d.findings s.settings.passes accesses := by
  unfold Attributes at hfound
  unfold attributed
  generalize s.units = units at hunits hfound ⊢
  induction hunits with
  | nil => rfl
  | cons hcu _ ih =>
      rw [List.forall_mem_cons] at haccesses hfound
      rw [List.flatMap_cons, List.map_append, List.flatMap_cons, ih haccesses.2 hfound.2, List.map_flatMap]
      refine congrArg (· ++ _) (List.flatMap_congr fun name hname => ?_)
      exact map_snd_foundIn hcu haccesses.1 hfound.1 (hnames name hname)

/-- What is told has all its places in the file of the source unit that it was found in. -/
theorem inFile_of_mem_attributed {programs : List ProgramDocument} {accesses : PlacedFunction → List Occurrence}
    {foundIn : CompilationUnit → SourceUnit → List Diagnostic}
    (hunits : List.Forall₂ CompilationUnit.Represents s.units programs)
    (haccesses : ∀ d ∈ programs, ∀ f ∈ d.bodies, f.Reports s.settings.worklistOrder (accesses f))
    (hfound : s.Attributes foundIn) {part : SourceUnit × Diagnostic} (hpart : part ∈ s.attributed foundIn) :
    part.2.InFile part.1.path := by
  obtain ⟨source, d⟩ := part
  obtain ⟨cu, hcu, hsource, hd⟩ := exists_foundIn_of_mem hpart
  obtain ⟨program, hprogram, hrepresents⟩ := exists_mem_of_forall₂ hunits hcu
  have hfinds := hfound cu hcu source hsource
  rw [hrepresents.sources_eq] at hsource
  obtain ⟨document, hdocument, rfl⟩ := List.mem_map.1 hsource
  rw [hfinds.unique (hrepresents.findsIn (haccesses program hprogram) hdocument)] at hd
  refine SourceDocument.inFile_of_mem (fun f hf => haccesses program hprogram f ?_) hd
  exact program.bodies_eq ▸ List.mem_flatMap.2 ⟨document, hdocument, hf⟩

/-! ## The end of a run as a text -/

/-- Diagnostics for the reader, each with a text for its source unit. -/
def rendering (colorize : Bool) (content : SourceUnit → Option Text) (parts : List (SourceUnit × Diagnostic)) : Text :=
  Text.intercalate "\n\n" (parts.map fun part => part.2.shown colorize (content part.1))

/-- Hard errors are shown with the last texts. -/
theorem text_of_diagnostics {outcome : Outcome} {parts : List (SourceUnit × Diagnostic)} {success : Bool}
    (hplain : s.format = .plain) (hverdict : outcome.verdict = .diagnostics (parts.map Prod.snd) success)
    (hparts : ∀ part ∈ parts, part.2.isError = true ∧ part.2.InFile part.1.path) :
    s.text outcome.present = .ok (rendering s.colorizes (fun source => s.lastText source.path) parts) := by
  have htext : s.text outcome.present = outcome.verdict.text s.contents s.colorizes := by
    rw [text, hplain]
    rfl
  rw [htext, hverdict, Verdict.text, Verdict.formatAll_eq hparts]
  simp only [get?_contents]
  rfl

/-- The rendering depends on the texts of the source units at hand alone. -/
theorem rendering_congr {colorize : Bool} {content content' : SourceUnit → Option Text}
    {parts : List (SourceUnit × Diagnostic)} (h : ∀ part ∈ parts, content part.1 = content' part.1) :
    rendering colorize content parts = rendering colorize content' parts := by
  rw [rendering, rendering]
  exact congrArg _ (List.map_congr_left fun part hpart => by rw [h part hpart])

/-- **What a run that finds something shows.**  Each diagnostic was found in a source unit, and all its places are in
the file of this unit.  It is shown with one text in all its places, which is the last one that any source unit with
the path of its own has.  Hence if source units with one path agree on their text, then every diagnostic is shown with
the text of the very source unit that it was found in. -/
theorem text_of_execute (env : Environment) (paths : List Text) (options : Options) (sink : Diagnostic.Sink)
    (s : Session) (created after : Trail) (outcome : Outcome) (found : List Diagnostic) (success : Bool)
    (hcreate : create env paths options sink = (.ok s, created)) (hexecute : s.execute created = (.ok outcome, after))
    (hverdict : outcome.verdict = .diagnostics found success) (hplain : s.format = .plain) :
    ∃ foundIn, s.Attributes foundIn ∧ (s.attributed foundIn).map Prod.snd = found ∧
      (∀ part ∈ s.attributed foundIn, part.1 ∈ s.sources ∧ part.2.InFile part.1.path) ∧
      s.text outcome.present =
        .ok (rendering s.colorizes (fun source => s.lastText source.path) (s.attributed foundIn)) ∧
      ((∀ source ∈ s.sources, ∀ other ∈ s.sources, other.path = source.path → other.content = source.content) →
        s.text outcome.present = .ok (rendering s.colorizes SourceUnit.content (s.attributed foundIn))) := by
  obtain ⟨setup, -, hstarted, hfiles, -⟩ := startedFrom_of_create hcreate
  obtain ⟨told, accesses, hprograms⟩ := exists_foundAt s.settings (fileFaults_eq_nil_of_create hcreate)
  obtain ⟨logs, after', hexecute'⟩ := execute_comesTo hcreate ⟨accesses, hprograms⟩ (List.Subset.refl _)
  have hcomesTo : s.comesTo paths told sink = .diagnostics found success := by
    obtain rfl : outcome = _ := Except.ok.inj (congrArg Prod.fst (hexecute.symm.trans hexecute'))
    exact hverdict
  obtain ⟨htells, hfound⟩ := tells_of_comesTo hcomesTo
  obtain ⟨programs, hunits, hat, -⟩ := exists_programs hstarted.units hfiles
  obtain ⟨htold, haccesses⟩ := flatMap_told_eq hat fun path hpath => hprograms path (List.mem_eraseDups.1 hpath)
  obtain ⟨foundIn, hfoundIn⟩ := exists_attributes hunits haccesses
  have hparts : (s.attributed foundIn).map Prod.snd = found := by
    rw [map_snd_attributed hunits haccesses htells.builtIn hfoundIn, ← htold, ← hfound]
  have hmem : ∀ part ∈ s.attributed foundIn, part.1 ∈ s.sources ∧ part.2.InFile part.1.path :=
    fun _ hpart => ⟨fst_mem_sources hpart, inFile_of_mem_attributed hunits haccesses hfoundIn hpart⟩
  have herror : ∀ d ∈ found, d.isError = true := hfound ▸ FoundAt.isError ⟨accesses, hprograms⟩
  have htext := text_of_diagnostics hplain (hparts.symm ▸ hverdict) fun part hpart =>
    ⟨herror _ (hparts ▸ List.mem_map_of_mem hpart), (hmem part hpart).2⟩
  refine ⟨foundIn, hfoundIn, hparts, hmem, htext, fun hagree => htext.trans (congrArg _ ?_)⟩
  exact rendering_congr fun part hpart => lastText_eq (hmem part hpart).1 (hagree part.1 (hmem part hpart).1)

/-! ## Two programs with one path -/

/-- There is only one way to attribute diagnostics to source units. -/
theorem Attributes.attributed_eq {foundIn foundIn' : CompilationUnit → SourceUnit → List Diagnostic}
    (h : s.Attributes foundIn) (h' : s.Attributes foundIn') : s.attributed foundIn = s.attributed foundIn' := by
  refine List.flatMap_congr fun cu hcu => List.flatMap_congr fun _ _ => List.flatMap_congr fun source hsource => ?_
  rw [(h cu hcu source hsource).unique (h' cu hcu source hsource)]

/-- Nothing is found in an empty source unit. -/
theorem nodes_ne_nil_of_mem {foundIn : CompilationUnit → SourceUnit → List Diagnostic} (h : s.Attributes foundIn)
    {part : SourceUnit × Diagnostic} (hpart : part ∈ s.attributed foundIn) : part.1.nodes ≠ [] := by
  intro hempty
  obtain ⟨source, d⟩ := part
  obtain ⟨cu, hcu, hsource, hd⟩ := exists_foundIn_of_mem hpart
  obtain ⟨functions, reports, hfunctions, hreports, hds⟩ := h cu hcu source hsource
  have hnone : implementedFunctions [source] = .ok [] := by
    rw [implementedFunctions, List.flatMap_singleton, hempty]
    rfl
  obtain rfl : functions = [] := Except.ok.inj (hfunctions.symm.trans hnone)
  rw [hds, List.forall₂_nil_left_iff.1 hreports] at hd
  exact absurd hd List.not_mem_nil

/-- A program with the text of a file, and another one with another text of the same file. -/
def twinFiles : Files :=
  .ofList [] [
    ("p.json", .text (
      "\x7b\"sources\":[\x7b\"path\":\"a.sol\",\"content\":\"one\\ntwo\",\"nodes\":[\x7b\"kind\":\"function\"," ++
      "\"id\":1,\"name\":\"f\",\"loc\":\x7b\"start\":0,\"end\":8\x7d,\"variables\":[\x7b\"id\":2,\"name\":\"x\"," ++
      "\"storage\":\"storage\",\"loc\":\x7b\"start\":1,\"end\":2\x7d\x7d],\"cfg\":\x7b\"entry\":0,\"exit\":0," ++
      "\"nodes\":[\x7b\"occurrences\":[\x7b\"kind\":\"declaration\",\"variable\":2\x7d,\x7b\"kind\":\"access\"," ++
      "\"variable\":2,\"site\":\x7b\"id\":3,\"loc\":\x7b\"start\":4,\"end\":5\x7d\x7d\x7d]\x7d]\x7d\x7d]\x7d]\x7d")),
    ("q.json", .text "\x7b\"sources\":[\x7b\"path\":\"a.sol\",\"content\":\"another text\"\x7d]\x7d")]

/-- What is found in the first program. -/
def twinFinding : Diagnostic where
  passId := Pass.UninitializedAccess.id
  severity := Severity.error.number
  message := Pass.UninitializedAccess.message
  location := ⟨some "a.sol", .ofNat 4, .ofNat 5⟩
  secondaryLocations := [⟨Pass.UninitializedAccess.declaredHere, ⟨some "a.sol", .ofNat 1, .ofNat 2⟩⟩]

/-- The diagnostics that a verdict tells. -/
def diagnostics? : Verdict → Option (List Diagnostic × Bool)
  | .diagnostics found success => some (found, success)
  | .ok | .error _ | .passes _ => none

theorem exists_execute_eq {created : Trail} {found : List Diagnostic} {success : Bool}
    (h : (s.execute created).1.toOption.bind (fun outcome => diagnostics? outcome.verdict) = some (found, success)) :
    ∃ outcome after, s.execute created = (.ok outcome, after) ∧ outcome.verdict = .diagnostics found success := by
  rcases hexecute : s.execute created with ⟨result, after⟩
  rw [hexecute] at h
  obtain ⟨outcome, houtcome, htold⟩ := Option.bind_eq_some_iff.1 h
  obtain rfl : result = .ok outcome := eq_ok_of_toOption houtcome
  refine ⟨outcome, after, rfl, ?_⟩
  cases hverdict : outcome.verdict with
  | diagnostics found' success' =>
      rw [hverdict] at htold
      obtain ⟨rfl, rfl⟩ := Prod.mk.inj (Option.some.inj htold)
      rfl
  | ok | error _ | passes _ => exact absurd htold (by simp [hverdict, diagnostics?])

/-- The first text, and the second one. -/
def twinTexts : Text × Text := ("one\ntwo", "another text")

/-- **Another program's text.**  The finding of the first program is shown with the text of the second one. -/
theorem twins_text_of_execute :
    let env : Environment := ⟨twinFiles, ⟨0, 0, 0, 0⟩, false⟩
    let paths : List Text := ["p.json", "q.json"]
    let options : Options := { Options.none with colors := some false, quiet := some true }
    ∃ s created outcome after, create env paths options .empty = (.ok s, created) ∧
      s.execute created = (.ok outcome, after) ∧ outcome.verdict = .diagnostics [twinFinding] false ∧
      s.text outcome.present = .ok (twinFinding.shown false (some twinTexts.2)) ∧
      ∀ foundIn, s.Attributes foundIn →
        rendering false SourceUnit.content (s.attributed foundIn) = twinFinding.shown false (some twinTexts.1) ∧
          s.text outcome.present ≠ .ok (rendering false SourceUnit.content (s.attributed foundIn)) := by
  intro env paths options
  have hview : ((create env paths options .empty).1.toOption.map fun s => (s.format, s.colorizes,
      s.lastText "a.sol", s.sources.map fun source => (source.content, source.nodes.isEmpty))) =
        some (OutputFormat.plain, false, some twinTexts.2,
          [(some twinTexts.1, false), (some twinTexts.2, true)]) := by
    decide +kernel
  have hrun : ((create env paths options .empty).1.toOption.map fun s =>
      (s.execute (create env paths options .empty).2).1.toOption.bind fun outcome => diagnostics? outcome.verdict) =
        some (some ([twinFinding], false)) := by
    decide +kernel
  obtain ⟨s, created, hcreate, hview⟩ := exists_create_eq hview
  simp only [Prod.mk.injEq] at hview
  obtain ⟨hformat, hcolors, hlast, hsources⟩ := hview
  rw [hcreate] at hrun
  obtain ⟨outcome, after, hexecute, hverdict⟩ := exists_execute_eq (Option.some.inj hrun)
  obtain ⟨foundIn, hfoundIn, hfound, hparts, htext, -⟩ := text_of_execute env paths options .empty s created after
    outcome [twinFinding] false hcreate hexecute hverdict hformat
  obtain ⟨⟨source, d⟩, hattributed, rfl⟩ := List.map_eq_singleton_iff.1 hfound
  have hpart : (source, twinFinding) ∈ s.attributed foundIn := hattributed ▸ List.mem_singleton_self _
  have hpath : "a.sol" = source.path := Option.some.inj (hparts _ hpart).2.1
  have hcontent : source.content = some twinTexts.1 := by
    have hnodes : source.nodes ≠ [] := nodes_ne_nil_of_mem hfoundIn hpart
    have hmem := List.mem_map_of_mem (f := fun source => (source.content, source.nodes.isEmpty))
      (fst_mem_sources hpart)
    rw [hsources] at hmem
    simpa [hnodes] using hmem
  have hshown : s.text outcome.present = .ok (twinFinding.shown false (some twinTexts.2)) := by
    rw [htext, hattributed, hcolors]
    show Except.ok (twinFinding.shown false (s.lastText source.path)) = _
    rw [← hpath, hlast]
  have hown : rendering false SourceUnit.content (s.attributed foundIn) =
      twinFinding.shown false (some twinTexts.1) := by
    rw [hattributed]
    show twinFinding.shown false source.content = _
    rw [hcontent]
  refine ⟨s, created, outcome, after, hcreate, hexecute, hverdict, hshown, fun foundIn' hfoundIn' => ?_⟩
  rw [hfoundIn'.attributed_eq hfoundIn, hown, hshown]
  refine ⟨rfl, fun heq => ?_⟩
  have hdiffers : twinFinding.shown false (some twinTexts.2) ≠ twinFinding.shown false (some twinTexts.1) := by
    decide +kernel
  exact hdiffers (Except.ok.inj heq)

end Session

end StorageFlow
