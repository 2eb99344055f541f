/-
# StorageFlow.Proofs.Program.Fidelity — a loaded program is what its document says.

A document `Describes` what was loaded if the two agree part by part: a source unit has the path and the text
of its document, and declarations of the same kinds in the same order; a flow has the nodes of its document with
the same touches of the same variables.  Nothing in these relations mentions the loader, and the file of a
location is in all of them that of the enclosing source.

The identity of a variable is not part of any document.  `FlowDocument.Describes.subject_eq_iff` says that within
a function it goes by the identifier; `CompilationUnit.Depicts.subject_ne` says that functions have no variables
in common, even if their identifiers are the same.

Main statement: `loadJson_depicts` — what is loaded is depicted by the document that was read.
-/
import Mathlib.Data.Option.Defs
import StorageFlow.Proofs.Program.Conversion
import StorageFlow.Proofs.Program.Reading

namespace StorageFlow

/-- Whole numbers are ordered like the numbers they were made from. -/
theorem Number.ofNat_le_ofNat {i k : Nat} (h : i ≤ k) : Number.ofNat i ≤ Number.ofNat k := by
  show (i : Int) * (Number.unit : Int) ≤ (k : Int) * (Number.unit : Int)
  exact Int.mul_le_mul_of_nonneg_right (Int.ofNat_le.2 h) (Int.natCast_nonneg _)

end StorageFlow

namespace StorageFlow.Program

/-! ## Declarations -/

/-- A location is a range of a file, and does not end before it starts. -/
structure Span.Describes (s : Span) (file : Text) (l : Location) : Prop where
  file_eq : l.file = some file
  start_eq : l.start = .ofNat s.start
  stop_eq : l.stop = .ofNat s.stop
  start_le_stop : l.start ≤ l.stop

structure EntityDocument.Describes (d : EntityDocument) (file : Text) (e : Entity) : Prop where
  id_eq : e.id = .ofNat d.id
  name_eq : e.name = d.name
  location : d.span.Describes file e.location

structure FunctionDocument.Describes (d : FunctionDocument) (file : Text) (f : FunctionDefinition) : Prop where
  id_eq : f.id = .ofNat d.id
  name_eq : f.name = d.name
  implemented_eq : f.implemented = d.implemented
  location : d.span.Describes file f.location

/-- A member of a contract in a file is of the same kind as in the document. -/
inductive MemberDocument.Describes (file : Text) : MemberDocument → Member → Prop
  | function {d : FunctionDocument} {f : FunctionDefinition} :
    d.Describes file f → Describes file (.function d) (.function f)
  | stateVariable {d : EntityDocument} {e : Entity} :
    d.Describes file e → Describes file (.stateVariable d) (.stateVariable e)
  | struct {d : EntityDocument} {e : Entity} : d.Describes file e → Describes file (.struct d) (.struct e)
  | event {d : EntityDocument} {e : Entity} : d.Describes file e → Describes file (.event d) (.event e)

/-- A declaration in a file is of the same kind as in the document, member by member. -/
inductive DeclarationDocument.Describes (file : Text) : DeclarationDocument → Declaration → Prop
  | contract {d : EntityDocument} {e : Entity} {ds : List MemberDocument} {ms : List Member} :
    d.Describes file e → List.Forall₂ (MemberDocument.Describes file) ds ms →
      Describes file (.contract d ds) (.contract e ms)
  | function {d : FunctionDocument} {f : FunctionDefinition} :
    d.Describes file f → Describes file (.function d) (.function f)
  | struct {d : EntityDocument} {e : Entity} : d.Describes file e → Describes file (.struct d) (.struct e)
  | importDirective {id : Nat} {path : Text} {s : Span} {l : Location} :
    s.Describes file l → Describes file (.importDirective id path s) (.importDirective (.ofNat id) path l)
  | pragma {id : Nat} {literals : List Text} {s : Span} {l : Location} :
    s.Describes file l → Describes file (.pragma id literals s) (.pragma (.ofNat id) literals l)

/-- A source unit is what a document says; its path is the file of all locations in it. -/
structure SourceDocument.Describes (d : SourceDocument) (s : SourceUnit) : Prop where
  path_eq : s.path = d.path
  content_eq : s.content = d.content
  nodes : List.Forall₂ (DeclarationDocument.Describes d.path) d.nodes s.nodes

section Declarations

variable {file : Text}

theorem Span.describes_inFile (s : Span) : s.Describes file (s.inFile file) :=
  ⟨rfl, rfl, rfl, Number.ofNat_le_ofNat s.start_le_stop⟩

theorem EntityDocument.describes_toEntity (d : EntityDocument) : d.Describes file (d.toEntity file) :=
  ⟨rfl, rfl, d.span.describes_inFile⟩

theorem FunctionDocument.describes_toDefinition (d : FunctionDocument) :
    d.Describes file (d.toDefinition file) :=
  ⟨rfl, rfl, rfl, d.span.describes_inFile⟩

theorem MemberDocument.describes_toMember (d : MemberDocument) :
    MemberDocument.Describes file d (d.toMember file) := by
  cases d with
  | function f => exact .function f.describes_toDefinition
  | stateVariable e => exact .stateVariable e.describes_toEntity
  | struct e => exact .struct e.describes_toEntity
  | event e => exact .event e.describes_toEntity

theorem DeclarationDocument.describes_toDeclaration (d : DeclarationDocument) :
    DeclarationDocument.Describes file d (d.toDeclaration file) := by
  cases d with
  | contract e members =>
      refine .contract e.describes_toEntity ?_
      rw [List.forall₂_map_right_iff, List.forall₂_same]
      intro member _
      exact member.describes_toMember
  | function f => exact .function f.describes_toDefinition
  | struct e => exact .struct e.describes_toEntity
  | importDirective id path span => exact .importDirective span.describes_inFile
  | pragma id literals span => exact .pragma span.describes_inFile

theorem SourceDocument.describes_toSourceUnit (d : SourceDocument) : d.Describes d.toSourceUnit := by
  refine ⟨rfl, rfl, ?_⟩
  show List.Forall₂ _ d.nodes (d.nodes.map (DeclarationDocument.toDeclaration d.path))
  rw [List.forall₂_map_right_iff, List.forall₂_same]
  intro node _
  exact node.describes_toDeclaration

end Declarations

/-! ## Flows -/

structure SiteDocument.Describes (d : SiteDocument) (file : Text) (s : Site) : Prop where
  id_eq : s.id = .ofNat d.id
  location : d.span.Describes file s.location

structure VariableDocument.Describes (d : VariableDocument) (file : Text) (v : Variable) : Prop where
  id_eq : v.id = .ofNat d.id
  name_eq : v.name = d.name
  storage_eq : v.storage = d.storage
  location : d.span.Describes file v.location

/-- An occurrence in a function touches the variable that the document names in the way that it says. -/
structure OccurrenceDocument.Describes (f : PlacedFunction) (d : OccurrenceDocument) (o : Occurrence) :
    Prop where
  kind_eq : o.kind = d.touch.number
  subject : ∃ v ∈ f.function.locals, v.id = d.target ∧ v.Describes f.file o.subject
  -- A declaration has no site, even if the document gives one.
  site_eq_none : d.touch = .declaration → o.site = none
  site : d.touch ≠ .declaration → Option.Rel (fun s site => s.Describes f.file site) d.site o.site

/-- A node of a flow has the occurrences of the document one for one, and leads to the same nodes; of an edge
that is repeated the first one counts. -/
structure NodeDocument.Describes (f : PlacedFunction) (d : NodeDocument) {size : Nat} (node : FlowNode size) :
    Prop where
  occurrences : List.Forall₂ (OccurrenceDocument.Describes f) d.occurrences node.occurrences
  exits_eq : node.exits.map Fin.val = d.exits.eraseDups

/-- A flow is what the document says about a function. -/
structure FlowDocument.Describes (f : PlacedFunction) (d : FlowDocument) (flow : Flow) : Prop where
  functionId_eq : flow.functionId = .ofNat f.function.id
  name_eq : flow.name = f.function.name
  size_eq : flow.size = d.nodes.length
  entry_eq : flow.entry.val = d.entry
  exit_eq : flow.exit.val = d.exit
  nodes : List.Forall₂ (fun n node => NodeDocument.Describes f n node) d.nodes flow.nodes
  -- No two occurrences are the same one.
  nodup_occurrences : flow.allOccurrences.Nodup
  -- Occurrences share a variable if and only if they name the same identifier.
  subject_eq_iff : ∀ x ∈ flow.allOccurrences, ∀ y ∈ flow.allOccurrences,
    x.subject = y.subject ↔ x.subject.id = y.subject.id

section Flows

variable {f : PlacedFunction} {d : FlowDocument} {known : Table Nat Variable} {flow : Flow}

theorem SiteDocument.describes_inFile (d : SiteDocument) (file : Text) : d.Describes file (d.inFile file) :=
  ⟨rfl, d.span.describes_inFile⟩

theorem PlacedFunction.Declares.exists_describes {id : Nat} {v : Variable} (h : f.Declares id v) :
    ∃ d ∈ f.function.locals, d.id = id ∧ d.Describes f.file v := by
  obtain ⟨slot, d, hd, hid, rfl⟩ := h
  exact ⟨d, List.mem_of_getElem? hd, hid, rfl, rfl, rfl, d.span.describes_inFile⟩

theorem OccurrenceDocument.describes_occurrenceAt (h : f.ConvertsTo d known flow) {n : NodeDocument}
    (hn : n ∈ d.nodes) {o : OccurrenceDocument} (ho : o ∈ n.occurrences) (node position : Nat) :
    o.Describes f (f.occurrenceAt known node position o) := by
  have hget := h.exists_get? hn ho node position
  refine ⟨rfl, (h.declares _ _ hget).exists_describes, ?_, ?_⟩
  · intro htouch
    show f.siteOf o = none
    rw [PlacedFunction.siteOf, htouch]
  · intro htouch
    have hsite : f.siteOf o = o.site.map fun s => s.inFile f.file := by
      unfold PlacedFunction.siteOf
      split
      · next hdeclaration => exact absurd hdeclaration htouch
      · rfl
      · rfl
      · rfl
    show Option.Rel _ o.site (f.siteOf o)
    rw [hsite]
    cases o.site with
    | none => exact .none
    | some s => exact .some (s.describes_inFile f.file)

theorem NodeDocument.describes_nodeAt (h : f.ConvertsTo d known flow) {n : NodeDocument} (hn : n ∈ d.nodes)
    {size : Nat} {node : FlowNode size} {i : Nat} (hbecomes : (f.nodeAt known i n).Becomes node) :
    n.Describes f node := by
  constructor
  · rw [hbecomes.occurrences_eq, PlacedFunction.nodeAt, List.forall₂_iff_get]
    refine ⟨(List.length_mapIdx).symm, fun k hk hk' => ?_⟩
    rw [List.get_eq_getElem, List.get_eq_getElem, List.getElem_mapIdx]
    exact OccurrenceDocument.describes_occurrenceAt h hn (List.getElem_mem hk) i k
  · have hexits : (node.exits.map Fin.val).map Number.ofNat = n.exits.eraseDups.map Number.ofNat := by
      rw [List.map_map]
      exact hbecomes.exits_eq
    exact List.map_injective_iff.2 Number.ofNat_injective hexits

/-- A flow is what the document that it is made from says. -/
theorem FlowDocument.describes_of_convertsTo (h : f.ConvertsTo d known flow) : d.Describes f flow := by
  have hlength : flow.nodes.length = d.nodes.length := by
    rw [← h.becomes.nodes.length_eq, List.length_mapIdx]
  refine ⟨h.becomes.functionId_eq, h.becomes.name_eq, ?_, h.becomes.entry_eq, h.becomes.exit_eq, ?_,
    h.nodup_allOccurrences, fun x hx y hy => h.subject_eq_iff hx hy⟩
  · rw [← hlength, flow.length_nodes]
  · rw [List.forall₂_iff_get]
    refine ⟨hlength.symm, fun i hi hi' => ?_⟩
    have hbecomes := h.becomes.nodes.get ((List.length_mapIdx).symm ▸ hi) hi'
    rw [List.get_eq_getElem, List.getElem_mapIdx] at hbecomes
    exact NodeDocument.describes_nodeAt h (List.getElem_mem hi) hbecomes

end Flows

/-! ## Programs -/

/-- A compilation unit is what the document says about a program. -/
structure CompilationUnit.Depicts (cu : CompilationUnit) (d : ProgramDocument) : Prop where
  sources : List.Forall₂ SourceDocument.Describes d.sources cu.sources
  -- A function with a body has the flow that the document gives for it.
  flows : ∀ f ∈ d.functions, f.function.implemented = true → ∃ fd flow, f.function.flow = some fd ∧
    cu.flows.flows.get? (.ofNat f.function.id) = some flow ∧ fd.Describes f flow
  -- A function without a body has no flow, even if the document gives one.
  bodiless : ∀ f ∈ d.functions, f.function.implemented = false →
    cu.flows.flows.get? (.ofNat f.function.id) = none
  -- Nothing else has a flow.
  registered : ∀ key flow, cu.flows.flows.get? key = some flow →
    ∃ f ∈ d.functions, f.function.implemented = true ∧ key = .ofNat f.function.id
  -- Functions have no variables in common.
  subject_ne : ∀ key key' flow flow', cu.flows.flows.get? key = some flow →
    cu.flows.flows.get? key' = some flow' → key ≠ key' →
      ∀ x ∈ flow.allOccurrences, ∀ y ∈ flow'.allOccurrences, x.subject ≠ y.subject

/-- A compilation unit that represents a program document is depicted by it. -/
theorem CompilationUnit.Represents.depicts {cu : CompilationUnit} {d : ProgramDocument}
    (h : cu.Represents d) (hd : d.Acceptable) : cu.Depicts d := by
  have hregistered (key : Number) (flow : Flow) (hflow : cu.flows.flows.get? key = some flow) :
      ∃ f ∈ d.functions, key = .ofNat f.function.id ∧ f.HasFlow flow := (h.get?_flows_iff key flow).1 hflow
  constructor
  · rw [h.sources_eq, List.forall₂_map_right_iff, List.forall₂_same]
    intro s _
    exact s.describes_toSourceUnit
  · intro f hf hbody
    obtain ⟨flow, hflow⟩ := hd.exists_hasFlow hf hbody
    obtain ⟨fd, known, hfd, hmade⟩ := hflow.exists_convertsTo
    exact ⟨fd, flow, hfd, (h.get?_flows_iff _ _).2 ⟨f, hf, rfl, hflow⟩,
      FlowDocument.describes_of_convertsTo hmade⟩
  · intro f hf hbodiless
    rw [Option.eq_none_iff_forall_ne_some]
    intro flow hflow
    obtain ⟨g, hg, hid, hbody, -⟩ := hregistered _ _ hflow
    -- Functions have different identifiers, so this is the function itself.
    have hsame : f = g := List.inj_on_of_nodup_map hd.nodup_ids hf hg (Number.ofNat_injective hid)
    rw [hsame, hbody] at hbodiless
    exact absurd hbodiless (by simp)
  · intro key flow hflow
    obtain ⟨f, hf, hkey, hbody, -⟩ := hregistered key flow hflow
    exact ⟨f, hf, hbody, hkey⟩
  · intro key key' flow flow' hflow hflow' hne x hx y hy heq
    obtain ⟨f, -, rfl, hf⟩ := hregistered key flow hflow
    obtain ⟨g, -, rfl, hg⟩ := hregistered key' flow' hflow'
    obtain ⟨_, _, -, hmade⟩ := hf.exists_convertsTo
    obtain ⟨_, _, -, hmade'⟩ := hg.exists_convertsTo
    apply hne
    rw [← hmade.owner_eq hx, ← hmade'.owner_eq hy, heq]

/-- **A loaded program is what its document says.**  What was read is what the document means, and what was
loaded is depicted by what was read. -/
theorem loadJson_depicts (j : Json) (projectName origin : Text) (trail : Trail) (cu : CompilationUnit)
    (h : (loadJson j projectName origin trail).1 = .ok cu) :
    ∃ d, (program (some j)).toExcept = .ok d ∧ Meaning.program (some j) d ∧ cu.Depicts d := by
  obtain ⟨d, hread, haccept, hrepresents⟩ := represents_of_loadJson h
  have hmeans : Meaning.program (some j) d := sound_program _ _ (Checked.toExcept_eq_ok_iff.1 hread)
  exact ⟨d, hread, hmeans, hrepresents.depicts haccept⟩

/-- A program with three functions.  Two of them have bodies and declare variables with one identifier; one edge
is repeated, a site is given for a declaration, and a flow is given for the function without a body. -/
def vaultDocument : Json :=
  let span (start stop : Nat) : Json := .object [("start", .ofNat start), ("end", .ofNat stop)]
  let declared : Json := .object [("id", .ofNat 2), ("name", .string "x"), ("storage", .string "storage"),
    ("loc", span 1 2)]
  let touch (kind : Text) : Json := .object [("kind", .string kind), ("variable", .ofNat 2),
    ("site", .object [("id", .ofNat 7), ("loc", span 3 4)])]
  let cfg : Json := .object [("entry", .ofNat 0), ("exit", .ofNat 1), ("nodes", .array [
    .object [("occurrences", .array [touch "declaration", touch "access"]),
      ("exits", .array [.ofNat 1, .ofNat 0, .ofNat 1])],
    .object []])]
  let function (id : Nat) (name : Text) (implemented : Bool) : Json := .object [("kind", .string "function"),
    ("id", .ofNat id), ("name", .string name), ("implemented", .bool implemented), ("loc", span 0 9),
    ("variables", .array [declared]), ("cfg", cfg)]
  .object [("sources", .array [
    .object [("path", .string "a.sol"), ("nodes", .array [
      .object [("kind", .string "contract"), ("id", .ofNat 10), ("name", .string "Vault"), ("loc", span 0 20),
        ("members", .array [function 1 "f" true])]])],
    .object [("path", .string "b.sol"), ("nodes", .array [function 3 "g" true, function 4 "h" false])]])]

/-- The program is loaded, and depicted by its document. -/
theorem vaultDocument_depicts :
    ∃ cu, (loadJson vaultDocument "vault" "vault.json" ⟨.start .silent false none, .empty⟩).1 = .ok cu ∧
      ∃ d, (program (some vaultDocument)).toExcept = .ok d ∧ Meaning.program (some vaultDocument) d ∧
        cu.Depicts d := by
  have hfound : ((loadJson vaultDocument "vault" "vault.json"
      ⟨.start .silent false none, .empty⟩).1.toOption).isSome = true := by decide +kernel
  obtain ⟨cu, hcu⟩ := Option.isSome_iff_exists.1 hfound
  have hload := eq_ok_of_toOption hcu
  exact ⟨cu, hload, loadJson_depicts vaultDocument "vault" "vault.json" _ cu hload⟩

end StorageFlow.Program
