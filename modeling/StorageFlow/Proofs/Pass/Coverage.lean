/-
# StorageFlow.Proofs.Pass.Coverage — the pass looks at every function with a body, in order.

The functions of a program are listed twice: by the loader, from the document, and by the pass, from the
declarations that the loader made.  Both lists agree (`functions_eq`).  For each function the pass gets the
flow that the document gives for this very function, because the registry of a compilation unit holds nothing
else; and a flow that was loaded can be analysed, because the loader records only known kinds of touches.  So
the pass never fails, and what it records is, function by function, one diagnostic for each reported access
(`pass_records`).
-/
import StorageFlow.Pass.Catalogue
import StorageFlow.Proofs.Analysis.Exactness
import StorageFlow.Proofs.Program.Acceptance

namespace StorageFlow.Program

/-! ## Functions with bodies -/

/-- The declarations of those functions that have bodies. -/
def bodied (file : Text) (fs : List FunctionDocument) : List FunctionDefinition :=
  (fs.filter FunctionDocument.implemented).map fun f => f.toDefinition file

theorem bodied_append (file : Text) (fs gs : List FunctionDocument) :
    bodied file (fs ++ gs) = bodied file fs ++ bodied file gs := by
  rw [bodied, List.filter_append, List.map_append]
  rfl

theorem ifImplemented_toDefinition (file : Text) (f : FunctionDocument) :
    (f.toDefinition file).ifImplemented = bodied file [f] := by
  have himplemented : (f.toDefinition file).implemented = f.implemented := rfl
  rw [FunctionDefinition.ifImplemented, himplemented, bodied]
  cases h : f.implemented with
  | false => simp [h]
  | true => simp [h]

theorem membersFunctions_toMember (file : Text) (members : List MemberDocument) :
    membersFunctions (members.map (MemberDocument.toMember file)) =
      .ok (bodied file (members.filterMap MemberDocument.function?)) := by
  induction members with
  | nil => rfl
  | cons m ms ih =>
      rw [List.map_cons, membersFunctions, ih]
      cases m with
      | function f =>
          have hfilter : (MemberDocument.function f :: ms).filterMap MemberDocument.function? =
              [f] ++ ms.filterMap MemberDocument.function? := rfl
          rw [hfilter, bodied_append, ← ifImplemented_toDefinition]
          rfl
      | stateVariable e => rfl
      | struct e => rfl
      | event e => rfl

theorem implementedFunctions_toDeclaration (file : Text) (d : DeclarationDocument) :
    (d.toDeclaration file).implementedFunctions = .ok (bodied file d.functions) := by
  cases d with
  | contract e members => exact membersFunctions_toMember file members
  | function f => exact congrArg Except.ok (ifImplemented_toDefinition file f)
  | struct e => rfl
  | importDirective id path span => rfl
  | pragma id literals span => rfl

theorem declarationsFunctions_toDeclaration (file : Text) (ds : List DeclarationDocument)
    {rest : List Declaration} {others : List FunctionDefinition}
    (hrest : declarationsFunctions rest = .ok others) :
    declarationsFunctions (ds.map (DeclarationDocument.toDeclaration file) ++ rest) =
      .ok (bodied file (ds.flatMap DeclarationDocument.functions) ++ others) := by
  induction ds with
  | nil => exact hrest
  | cons d ds ih =>
      rw [List.map_cons, List.cons_append, declarationsFunctions, ih, implementedFunctions_toDeclaration,
        List.flatMap_cons, bodied_append, List.append_assoc]
      rfl

/-- The declaration that the loader makes of a function. -/
def PlacedFunction.definition (f : PlacedFunction) : FunctionDefinition := f.function.toDefinition f.file

/-- The functions of a program that have bodies, in the order of their declarations. -/
def ProgramDocument.bodies (d : ProgramDocument) : List PlacedFunction :=
  d.functions.filter fun f => f.function.implemented

theorem implementedFunctions_toSourceUnit (sources : List SourceDocument) :
    implementedFunctions (sources.map SourceDocument.toSourceUnit) =
      .ok (((sources.flatMap SourceDocument.functions).filter fun f => f.function.implemented).map
        PlacedFunction.definition) := by
  unfold implementedFunctions
  induction sources with
  | nil => rfl
  | cons s sources ih =>
      have hplaced : (s.functions.filter fun f => f.function.implemented).map PlacedFunction.definition =
          bodied s.path (s.nodes.flatMap DeclarationDocument.functions) := by
        rw [SourceDocument.functions, List.filter_map, List.map_map]
        rfl
      rw [List.map_cons, List.flatMap_cons, List.flatMap_cons, List.filter_append, List.map_append, hplaced]
      exact declarationsFunctions_toDeclaration s.path s.nodes ih

variable {cu : CompilationUnit} {d : ProgramDocument} {f : PlacedFunction} {flow : Flow}

/-- The pass finds the functions that the document declares. -/
theorem CompilationUnit.Represents.functions_eq (h : cu.Represents d) :
    cu.functions = .ok (d.bodies.map PlacedFunction.definition) := by
  rw [CompilationUnit.functions, h.sources_eq, implementedFunctions_toSourceUnit]
  rfl

/-- A function gets its own flow. -/
theorem CompilationUnit.Represents.flowOf_eq (h : cu.Represents d) (hf : f ∈ d.functions)
    (hflow : f.HasFlow flow) : cu.flowOf f.definition = .ok flow := by
  have hget : cu.flows.flows.get? f.definition.id = some flow :=
    (h.get?_flows_iff _ _).2 ⟨f, hf, rfl, hflow⟩
  rw [CompilationUnit.flowOf, Flow.Registry.flowOf, hget]

/-! ## Reported accesses -/

/-- The accesses that are reported in a function, in reporting order. -/
def PlacedFunction.Reports (order : Order) (f : PlacedFunction) (accesses : List Occurrence) : Prop :=
  ∃ flow r, f.HasFlow flow ∧ Analysis.run flow order = .ok r ∧ r.accesses = accesses

theorem PlacedFunction.Reports.unique {order : Order} {accesses others : List Occurrence}
    (h : f.Reports order accesses) (hothers : f.Reports order others) : accesses = others := by
  obtain ⟨flow, r, hflow, hrun, rfl⟩ := h
  obtain ⟨flow', r', hflow', hrun', rfl⟩ := hothers
  obtain rfl : flow = flow' := hflow.unique hflow'
  obtain rfl : r = r' := Except.ok.inj (hrun.symm.trans hrun')
  rfl

theorem PlacedFunction.HasFlow.hasKnownKinds (h : f.HasFlow flow) : flow.HasKnownKinds :=
  fun _ _ o ho => h.builtFor.kinds o (Flow.mem_allOccurrences ho)

/-- A flow that was loaded can be analysed. -/
theorem PlacedFunction.HasFlow.exists_reports (h : f.HasFlow flow) (order : Order) :
    ∃ accesses, f.Reports order accesses := by
  obtain ⟨s, hrun, -⟩ := Analysis.exists_run h.hasKnownKinds order
  exact ⟨_, flow, _, h, hrun, rfl⟩

/-- Every function with a body has its reported accesses, if the programs were accepted. -/
theorem exists_accesses (order : Order) {programs : List ProgramDocument}
    (h : ∀ d ∈ programs, d.Acceptable) :
    ∃ accesses : PlacedFunction → List Occurrence,
      ∀ d ∈ programs, ∀ f ∈ d.bodies, f.Reports order (accesses f) := by
  have hreports : ∀ f : PlacedFunction, ∃ accesses, ∀ d ∈ programs, f ∈ d.bodies →
      f.Reports order accesses := by
    intro f
    by_cases hf : ∃ d ∈ programs, f ∈ d.bodies
    · obtain ⟨d, hd, hbody⟩ := hf
      obtain ⟨hmem, himplemented⟩ := List.mem_filter.1 hbody
      obtain ⟨flow, hflow⟩ := (h d hd).exists_hasFlow hmem himplemented
      obtain ⟨accesses, haccesses⟩ := hflow.exists_reports order
      exact ⟨accesses, fun _ _ _ => haccesses⟩
    · exact ⟨[], fun d hd hbody => absurd ⟨d, hd, hbody⟩ hf⟩
  choose accesses haccesses using hreports
  exact ⟨accesses, fun d hd f hf => haccesses f d hd hf⟩

end StorageFlow.Program

namespace StorageFlow.Pass.UninitializedAccess

open Program

variable {order : Order} {cu : CompilationUnit} {d : ProgramDocument}

theorem checkFlow_records {flow : Flow} {r : Analysis.Result flow} (hrun : Analysis.run flow order = .ok r) :
    Action.Records (fun ds => ds = r.accesses.map diagnosticFor) (checkFlow order flow)
      (r.accesses.map diagnosticFor) := by
  rw [checkFlow, hrun, Action.ofExcept_ok_bind]
  apply Action.Records.after_log
  exact (Action.records_record _).bind_pure fun _ _ => rfl

theorem checkFunction_records {f : PlacedFunction} {accesses : List Occurrence} (h : cu.Represents d)
    (hf : f ∈ d.functions) (hreports : f.Reports order accesses) :
    Action.Records (fun ds => ds = accesses.map diagnosticFor) (checkFunction order cu f.definition)
      (accesses.map diagnosticFor) := by
  obtain ⟨flow, r, hflow, hrun, rfl⟩ := hreports
  rw [checkFunction, h.flowOf_eq hf hflow, Action.ofExcept_ok_bind]
  exact (checkFlow_records hrun).withContext _

/-- The diagnostics of some functions, in their order. -/
theorem checkFunctions_records {accesses : PlacedFunction → List Occurrence} (h : cu.Represents d)
    {fs : List PlacedFunction} (hfs : ∀ f ∈ fs, f ∈ d.functions ∧ f.Reports order (accesses f)) :
    Action.Records (fun ds => ds = fs.flatMap fun f => (accesses f).map diagnosticFor)
      (checkFunctions order cu (fs.map PlacedFunction.definition))
      (fs.flatMap fun f => (accesses f).map diagnosticFor) := by
  induction fs with
  | nil => exact Action.records_pure rfl
  | cons f fs ih =>
      obtain ⟨hf, hreports⟩ := hfs f List.mem_cons_self
      have hrest := ih fun g hg => hfs g (List.mem_cons_of_mem f hg)
      rw [List.map_cons, checkFunctions, List.flatMap_cons]
      refine (checkFunction_records h hf hreports).bind fun first hfirst => ?_
      refine hrest.bind_pure fun others hothers => ?_
      rw [hfirst, hothers]

/-- **The pass covers a program.**  It never fails, and records one diagnostic for each access that is reported
in a function with a body, function by function. -/
theorem pass_records {accesses : PlacedFunction → List Occurrence} (h : cu.Represents d)
    (haccesses : ∀ f ∈ d.bodies, f.Reports order (accesses f)) :
    Action.Records (fun ds => ds = d.bodies.flatMap fun f => (accesses f).map diagnosticFor)
      ((pass order).check cu) (d.bodies.flatMap fun f => (accesses f).map diagnosticFor) := by
  have hcheck : (pass order).check cu = checkFunctions order cu (d.bodies.map PlacedFunction.definition) := by
    show (Action.ofExcept cu.functions >>= fun functions => checkFunctions order cu functions) = _
    rw [h.functions_eq, Action.ofExcept_ok_bind]
  rw [hcheck]
  exact checkFunctions_records h fun f hf => ⟨List.mem_of_mem_filter hf, haccesses f hf⟩

end StorageFlow.Pass.UninitializedAccess
