/-
# StorageFlow.Proofs.Program.Reading — what program documents mean.

For each type of the program schema it is said which documents stand for which values of the type: which fields
are looked at, what they have to say, and what a field that is missing stands for.

Main statement: `sound_program` — if a document is accepted, then what was read is what the document means.
-/
import StorageFlow.Program.Schema
import StorageFlow.Proofs.Validation.Meaning

namespace StorageFlow.Meaning

open Program

/-! ## Parts of documents -/

def span : Meaning Span := object fun j s => field "start" nat j s.start ∧ field "end" nat j s.stop

def site : Meaning SiteDocument := object fun j s => field "id" nat j s.id ∧ field "loc" span j s.span

/-- The names of the kinds of touches. -/
def touches : List (Text × Touch) :=
  [("declaration", .declaration), ("assignment", .assignment), ("inline_reference", .inlineReference),
    ("access", .access)]

/-- A touch of a variable.  Whatever is said about the site of a declaration means nothing. -/
def touch (j : Json) (o : OccurrenceDocument) : Prop :=
  field "kind" (choice touches) j o.touch ∧ field "variable" nat j o.target ∧
    if o.touch = .declaration then o.site = none else field "site" (optional site) j o.site

def occurrence : Meaning OccurrenceDocument := object touch

def node : Meaning NodeDocument := object fun j n =>
  field "occurrences" (withDefault [] (array occurrence)) j n.occurrences ∧
    field "exits" (withDefault [] (array nat)) j n.exits

def flow : Meaning FlowDocument := object fun j d =>
  field "entry" nat j d.entry ∧ field "exit" nat j d.exit ∧ field "nodes" (array node) j d.nodes

/-- The names of data locations. -/
def dataLocations : List (Text × DataLocation) :=
  [("storage", .storage), ("memory", .memory), ("calldata", .calldata), ("default", .unspecified)]

def localVariable : Meaning VariableDocument := object fun j v =>
  field "id" nat j v.id ∧ field "name" text j v.name ∧
    field "storage" (withDefault .unspecified (choice dataLocations)) j v.storage ∧ field "loc" span j v.span

def function (j : Json) (f : FunctionDocument) : Prop :=
  field "id" nat j f.id ∧ field "name" text j f.name ∧
    field "implemented" (withDefault true flag) j f.implemented ∧ field "loc" span j f.span ∧
      field "variables" (withDefault [] (array localVariable)) j f.locals ∧ field "cfg" (optional flow) j f.flow

def entity (j : Json) (e : EntityDocument) : Prop :=
  field "id" nat j e.id ∧ field "name" text j e.name ∧ field "loc" span j e.span

/-- The kind of an object is named in a field of its own. -/
def kind (name : Text) (j : Json) : Prop := j.field? "kind" = some (.string name)

def member : Meaning MemberDocument := object fun j m =>
  match m with
  | .function f => kind "function" j ∧ function j f
  | .stateVariable e => kind "variable" j ∧ entity j e
  | .struct e => kind "struct" j ∧ entity j e
  | .event e => kind "event" j ∧ entity j e

def declaration : Meaning DeclarationDocument := object fun j d =>
  match d with
  | .contract e members =>
    kind "contract" j ∧ entity j e ∧ field "members" (withDefault [] (array member)) j members
  | .function f => kind "function" j ∧ function j f
  | .struct e => kind "struct" j ∧ entity j e
  | .importDirective id path s =>
    kind "import" j ∧ field "id" nat j id ∧ field "path" text j path ∧ field "loc" span j s
  | .pragma id literals s =>
    kind "pragma" j ∧ field "id" nat j id ∧ field "literals" (array text) j literals ∧ field "loc" span j s

def source : Meaning SourceDocument := object fun j s =>
  field "path" text j s.path ∧ field "content" (optional text) j s.content ∧
    field "nodes" (withDefault [] (array declaration)) j s.nodes

def program : Meaning ProgramDocument := object fun j d =>
  field "name" (optional text) j d.name ∧ field "sources" (array source) j d.sources

end StorageFlow.Meaning

namespace StorageFlow.Program

open Reader

/-! ## Soundness of the schema -/

theorem sound_span : Sound span Meaning.span := by
  refine sound_object fun j s h => ?_
  obtain ⟨⟨start, stop⟩, hboth, hbetween⟩ := Checked.andThen_eq_valid_iff.1 h
  simp only [Checked.applicative_seq_eq_valid_iff, Checked.functor_map_eq_valid_iff] at hboth
  obtain ⟨_, stop', ⟨start', hstart, rfl⟩, hstop, heq⟩ := hboth
  obtain ⟨rfl, rfl⟩ := Prod.mk.inj heq
  obtain ⟨m, rfl, hm⟩ := sound_natural (Checked.under_eq_valid_iff.1 hstart)
  obtain ⟨n, rfl, hn⟩ := sound_natural (Checked.under_eq_valid_iff.1 hstop)
  replace hbetween : spanBetween (.ofNat m) (.ofNat n) = .valid s := hbetween
  unfold spanBetween at hbetween
  split at hbetween
  · obtain rfl := Checked.valid_inj.1 hbetween
    simp only [Meaning.field, Meaning.nat, Number.toNat_ofNat]
    exact ⟨hm, hn⟩
  · exact absurd hbetween (Checked.invalid_ne_valid _ _)

theorem sound_site : Sound site Meaning.site := by
  refine sound_object fun j s h => ?_
  simp only [Checked.applicative_seq_eq_valid_iff, Checked.functor_map_eq_valid_iff] at h
  obtain ⟨_, range, ⟨id, hid, rfl⟩, hrange, rfl⟩ := h
  exact ⟨sound_nat.field hid, sound_span.field hrange⟩

theorem touch_of_bareTouch {name : Text} {j : Json} {o : OccurrenceDocument}
    (hname : j.field? "kind" = some (.string name)) (hmem : (name, .declaration) ∈ Meaning.touches)
    (h : bareTouch .declaration j = .valid o) : Meaning.touch j o := by
  obtain ⟨target, htarget, rfl⟩ := Checked.functor_map_eq_valid_iff.1 h
  exact ⟨⟨name, hname, hmem⟩, sound_nat.field htarget, if_pos rfl ▸ rfl⟩

theorem touch_of_sitedTouch {name : Text} {t : Touch} {j : Json} {o : OccurrenceDocument}
    (hname : j.field? "kind" = some (.string name)) (hmem : (name, t) ∈ Meaning.touches)
    (hne : t ≠ .declaration) (h : sitedTouch t j = .valid o) : Meaning.touch j o := by
  simp only [sitedTouch, Checked.applicative_seq_eq_valid_iff, Checked.functor_map_eq_valid_iff] at h
  obtain ⟨_, s, ⟨target, htarget, rfl⟩, hsite, rfl⟩ := h
  refine ⟨⟨name, hname, hmem⟩, sound_nat.field htarget, ?_⟩
  rw [if_neg hne]
  exact sound_site.optional.field hsite

theorem sound_occurrence : Sound occurrence Meaning.occurrence := by
  refine sound_variant fun name body hbody j o hname h => ?_
  simp only [List.mem_cons, Prod.mk.injEq, List.not_mem_nil, or_false] at hbody
  rcases hbody with ⟨rfl, rfl⟩ | ⟨rfl, rfl⟩ | ⟨rfl, rfl⟩ | ⟨rfl, rfl⟩
  · exact touch_of_bareTouch hname (by simp [Meaning.touches]) h
  · exact touch_of_sitedTouch hname (by simp [Meaning.touches]) (by decide) h
  · exact touch_of_sitedTouch hname (by simp [Meaning.touches]) (by decide) h
  · exact touch_of_sitedTouch hname (by simp [Meaning.touches]) (by decide) h

theorem sound_node : Sound node Meaning.node := by
  refine sound_object fun j n h => ?_
  simp only [Checked.applicative_seq_eq_valid_iff, Checked.functor_map_eq_valid_iff] at h
  obtain ⟨_, exits, ⟨occurrences, hoccurrences, rfl⟩, hexits, rfl⟩ := h
  exact ⟨(sound_occurrence.array.withDefault _).field hoccurrences,
    (sound_nat.array.withDefault _).field hexits⟩

theorem sound_flow : Sound flow Meaning.flow := by
  refine sound_object fun j d h => ?_
  simp only [Checked.applicative_seq_eq_valid_iff, Checked.functor_map_eq_valid_iff] at h
  obtain ⟨_, nodes, ⟨_, exit, ⟨entry, hentry, rfl⟩, hexit, rfl⟩, hnodes, rfl⟩ := h
  exact ⟨sound_nat.field hentry, sound_nat.field hexit, (sound_node.arrayWith 1).field hnodes⟩

theorem sound_localVariable : Sound variableSchema Meaning.localVariable := by
  refine sound_object fun j v h => ?_
  simp only [Checked.applicative_seq_eq_valid_iff, Checked.functor_map_eq_valid_iff] at h
  obtain ⟨_, range, ⟨_, place, ⟨_, name, ⟨id, hid, rfl⟩, hname, rfl⟩, hplace, rfl⟩, hrange, rfl⟩ := h
  exact ⟨sound_nat.field hid, sound_text.field hname,
    ((sound_choice dataLocations).withDefault _).field hplace, sound_span.field hrange⟩

theorem function_of_valid {j : Json} {f : FunctionDocument} (h : function j = .valid f) :
    Meaning.function j f := by
  simp only [function, Checked.applicative_seq_eq_valid_iff, Checked.functor_map_eq_valid_iff] at h
  obtain ⟨_, given, ⟨_, locals, ⟨_, range, ⟨_, implemented, ⟨_, name, ⟨id, hid, rfl⟩, hname, rfl⟩,
    himplemented, rfl⟩, hrange, rfl⟩, hlocals, rfl⟩, hgiven, rfl⟩ := h
  exact ⟨sound_nat.field hid, sound_text.field hname, (sound_flag.withDefault true).field himplemented,
    sound_span.field hrange, (sound_localVariable.array.withDefault _).field hlocals,
    sound_flow.optional.field hgiven⟩

theorem entity_of_valid {j : Json} {e : EntityDocument} (h : entity j = .valid e) : Meaning.entity j e := by
  simp only [entity, Checked.applicative_seq_eq_valid_iff, Checked.functor_map_eq_valid_iff] at h
  obtain ⟨_, range, ⟨_, name, ⟨id, hid, rfl⟩, hname, rfl⟩, hrange, rfl⟩ := h
  exact ⟨sound_nat.field hid, sound_text.field hname, sound_span.field hrange⟩

theorem sound_member : Sound member Meaning.member := by
  refine sound_variant fun name body hbody j m hname h => ?_
  simp only [List.mem_cons, Prod.mk.injEq, List.not_mem_nil, or_false] at hbody
  rcases hbody with ⟨rfl, rfl⟩ | ⟨rfl, rfl⟩ | ⟨rfl, rfl⟩ | ⟨rfl, rfl⟩ <;>
    obtain ⟨part, hpart, rfl⟩ := Checked.functor_map_eq_valid_iff.1 h
  · exact ⟨hname, function_of_valid hpart⟩
  · exact ⟨hname, entity_of_valid hpart⟩
  · exact ⟨hname, entity_of_valid hpart⟩
  · exact ⟨hname, entity_of_valid hpart⟩

theorem sound_declaration : Sound declaration Meaning.declaration := by
  refine sound_variant fun name body hbody j d hname h => ?_
  simp only [List.mem_cons, Prod.mk.injEq, List.not_mem_nil, or_false] at hbody
  rcases hbody with ⟨rfl, rfl⟩ | ⟨rfl, rfl⟩ | ⟨rfl, rfl⟩ | ⟨rfl, rfl⟩ | ⟨rfl, rfl⟩ <;>
    simp only [Checked.applicative_seq_eq_valid_iff, Checked.functor_map_eq_valid_iff] at h
  · obtain ⟨_, members, ⟨e, he, rfl⟩, hmembers, rfl⟩ := h
    exact ⟨hname, entity_of_valid he, (sound_member.array.withDefault _).field hmembers⟩
  · obtain ⟨f, hf, rfl⟩ := h
    exact ⟨hname, function_of_valid hf⟩
  · obtain ⟨e, he, rfl⟩ := h
    exact ⟨hname, entity_of_valid he⟩
  · obtain ⟨_, range, ⟨_, path, ⟨id, hid, rfl⟩, hpath, rfl⟩, hrange, rfl⟩ := h
    exact ⟨hname, sound_nat.field hid, sound_text.field hpath, sound_span.field hrange⟩
  · obtain ⟨_, range, ⟨_, literals, ⟨id, hid, rfl⟩, hliterals, rfl⟩, hrange, rfl⟩ := h
    exact ⟨hname, sound_nat.field hid, sound_text.array.field hliterals, sound_span.field hrange⟩

theorem sound_source : Sound source Meaning.source := by
  refine sound_object fun j s h => ?_
  simp only [Checked.applicative_seq_eq_valid_iff, Checked.functor_map_eq_valid_iff] at h
  obtain ⟨_, nodes, ⟨_, content, ⟨path, hpath, rfl⟩, hcontent, rfl⟩, hnodes, rfl⟩ := h
  exact ⟨sound_text.field hpath, sound_text.optional.field hcontent,
    (sound_declaration.array.withDefault _).field hnodes⟩

/-- **What is read from an accepted document is what the document means.** -/
theorem sound_program : Sound program Meaning.program := by
  refine sound_object fun j d h => ?_
  simp only [Checked.applicative_seq_eq_valid_iff, Checked.functor_map_eq_valid_iff] at h
  obtain ⟨_, sources, ⟨name, hname, rfl⟩, hsources, rfl⟩ := h
  exact ⟨sound_text.optional.field hname, sound_source.array.field hsources⟩

end StorageFlow.Program
