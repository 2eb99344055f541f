/-
# StorageFlow.Proofs.Session.Configuration — the manner of a run does not decide what it executes.

A configuration says what to execute and how to judge it, and also in which order to process nodes and how much to
tell.  The latter two are the *manner* of a run.  If two configuration files differ in their manner only, then the
same issues are met in both, and if there are none, both name the same passes and the same policy (`load_alike`).
Readers are put together from parts, so this goes from the readings of the parts to the reading of the whole.
-/
import Mathlib.Data.Option.Defs
import StorageFlow.Proofs.Action.Effects
import StorageFlow.Setup

namespace StorageFlow

/-! ## Readings that are alike -/

namespace Checked

/-- The same issues were met in two readings, and what was read is related. -/
structure Alike {α β : Type} (R : α → β → Prop) (c : Checked α) (d : Checked β) : Prop where
  issues_eq : c.issues = d.issues
  value? : Option.Rel R c.value? d.value?

variable {α β γ ζ : Type} {R : α → β → Prop} {S : γ → ζ → Prop} {c : Checked α} {d : Checked β}

theorem alike_refl {Q : α → α → Prop} (hrefl : ∀ a, Q a a) (c : Checked α) : Alike Q c c := by
  obtain ⟨value?, issues⟩ := c
  cases value? with
  | none => exact ⟨rfl, .none⟩
  | some a => exact ⟨rfl, .some (hrefl a)⟩

theorem Alike.map {f : α → γ} {g : β → ζ} (h : Alike R c d) (hf : ∀ a b, R a b → S (f a) (g b)) :
    Alike S (f <$> c) (g <$> d) := by
  obtain ⟨c?, issues⟩ := c
  obtain ⟨d?, more⟩ := d
  obtain ⟨rfl, hvalue⟩ := h
  cases hvalue with
  | none => exact ⟨rfl, .none⟩
  | some hab => exact ⟨rfl, .some (hf _ _ hab)⟩

theorem Alike.seq {f : Checked (α → γ)} {g : Checked (β → ζ)}
    (hf : Alike (fun f g => ∀ a b, R a b → S (f a) (g b)) f g) (h : Alike R c d) :
    Alike S (f <*> c) (g <*> d) := by
  obtain ⟨f?, fissues⟩ := f
  obtain ⟨g?, gissues⟩ := g
  obtain ⟨c?, issues⟩ := c
  obtain ⟨d?, more⟩ := d
  obtain ⟨rfl, hfg⟩ := hf
  obtain ⟨rfl, hvalue⟩ := h
  cases hfg with
  | none => exact ⟨rfl, .none⟩
  | some hfg =>
      cases hvalue with
      | none => exact ⟨rfl, .none⟩
      | some hab => exact ⟨rfl, .some (hfg _ _ hab)⟩

theorem Alike.under (h : Alike R c d) (step : PathStep) : Alike R (c.under step) (d.under step) :=
  ⟨congrArg _ h.issues_eq, h.value?⟩

theorem Alike.also (h : Alike R c d) (issues : List Issue) : Alike R (c.also issues) (d.also issues) :=
  ⟨congrArg (· ++ issues) h.issues_eq, h.value?⟩

theorem Alike.toExcept (h : Alike R c d) : EndAlike R c.toExcept d.toExcept := by
  obtain ⟨c?, issues⟩ := c
  obtain ⟨d?, more⟩ := d
  obtain ⟨rfl, hvalue⟩ := h
  cases hvalue with
  | none => cases issues <;> exact .error _
  | some hab =>
      cases issues with
      | nil => exact .ok hab
      | cons issue issues => exact .error _

end Checked

/-! ## Configuration files -/

namespace Settings

open Reader

/-- The fields of a configuration file for the manner of a run. -/
def mannerKeys : List Text := ["worklistOrder", "verbosity"]

/-- The fields of a configuration file without those for the manner of a run. -/
def apartFromManner (fields : List (Text × Json)) : List (Text × Json) :=
  fields.filter fun field => !mannerKeys.contains field.1

/-- A part is the same in two documents, or it is valid in both. -/
def SameOrValid {α : Type} (r : Reader α) (j k : Option Json) : Prop :=
  j = k ∨ ∃ a b, r j = .valid a ∧ r k = .valid b

/-- Two documents are the same, or they are objects that differ only in the valid values of the manner. -/
inductive SameApartFromManner : Json → Json → Prop
  | same (j : Json) : SameApartFromManner j j
  | manner {fields others : List (Text × Json)} :
    apartFromManner fields = apartFromManner others →
    SameOrValid (withDefault .lifo (choice Order.named)) ((Json.object fields).field? "worklistOrder")
      ((Json.object others).field? "worklistOrder") →
    SameOrValid (withDefault .ordinary (choice Verbosity.named)) ((Json.object fields).field? "verbosity")
      ((Json.object others).field? "verbosity") →
    SameApartFromManner (.object fields) (.object others)

theorem SameOrValid.alike {α : Type} {r : Reader α} {j k : Option Json} (h : SameOrValid r j k) :
    Checked.Alike (fun _ _ => True) (r j) (r k) := by
  rcases h with rfl | ⟨a, b, ha, hb⟩
  · exact Checked.alike_refl (fun _ => trivial) (r j)
  · rw [ha, hb]
    exact ⟨rfl, .some trivial⟩

section Fields

variable {fields others : List (Text × Json)} {key : Text}

/-- Other fields are found where they stand. -/
theorem field?_apartFromManner (hkey : key ∉ mannerKeys) :
    (Json.object (apartFromManner fields)).field? key = (Json.object fields).field? key := by
  show Table.find? key (apartFromManner fields) = Table.find? key fields
  induction fields with
  | nil => rfl
  | cons field fields ih =>
      obtain ⟨k, j⟩ := field
      rw [apartFromManner, List.filter_cons, Table.find?]
      by_cases hk : k = key
      · subst hk
        have hkept : (!mannerKeys.contains k) = true := by simpa using hkey
        rw [if_pos hkept, if_pos rfl, Table.find?, if_pos rfl]
      · rw [if_neg hk, ← ih]
        split
        · rw [Table.find?, if_neg hk]
          rfl
        · rfl

/-- Unknown fields are not about the manner. -/
theorem unknownKeys_apartFromManner :
    unknownKeys knownKeys (.object (apartFromManner fields)) = unknownKeys knownKeys (.object fields) := by
  have hfields : (((apartFromManner fields).map Prod.fst).filter fun key => !knownKeys.contains key) =
      (fields.map Prod.fst).filter fun key => !knownKeys.contains key := by
    rw [apartFromManner, List.filter_map, List.filter_map, List.filter_filter]
    refine congrArg _ (List.filter_congr fun field _ => ?_)
    have hknown : field.1 ∈ mannerKeys → field.1 ∈ knownKeys := by
      simp only [mannerKeys, knownKeys, List.mem_cons, List.not_mem_nil, or_false]
      rintro (h | h)
      · exact .inr (.inr (.inl h))
      · exact .inr (.inr (.inr h))
    simpa using mt hknown
  rw [unknownKeys, unknownKeys, hfields]

end Fields

/-- Two documents name the same passes and the same policy. -/
def Document.SameSelection (d e : Document) : Prop :=
  d.passes = e.passes ∧ d.successPolicy = e.successPolicy

/-- Two configurations have the same passes and the same policy. -/
def SameSelection (s t : Settings) : Prop := s.passes = t.passes ∧ s.successPolicy = t.successPolicy

/-- What is read from two such documents differs in the manner only. -/
theorem SameApartFromManner.document_alike {j k : Json} (h : SameApartFromManner j k) :
    Checked.Alike Document.SameSelection (document (some j)) (document (some k)) := by
  cases h with
  | same j => exact Checked.alike_refl (fun _ => ⟨rfl, rfl⟩) _
  | @manner fields others hsame horder hverbosity =>
      have hfield {key : Text} (hkey : key ∉ mannerKeys) :
          (Json.object fields).field? key = (Json.object others).field? key := by
        rw [← field?_apartFromManner hkey, hsame, field?_apartFromManner hkey]
      have hpasses : (Json.object fields).field? "passes" = (Json.object others).field? "passes" :=
        hfield (by decide)
      have hpolicy : (Json.object fields).field? "successPolicy" = (Json.object others).field? "successPolicy" :=
        hfield (by decide)
      have hunknown : unknownKeys knownKeys (.object fields) = unknownKeys knownKeys (.object others) := by
        rw [← unknownKeys_apartFromManner, hsame, unknownKeys_apartFromManner]
      simp only [document, object, field, hpasses, hpolicy, hunknown]
      have hread {α : Type} (c : Checked α) : Checked.Alike Eq c c := Checked.alike_refl (fun _ => rfl) c
      refine Checked.Alike.also ?_ _
      refine .seq (.seq (.seq (.map (hread _) ?_) (hread _)) (horder.alike.under _)) (hverbosity.alike.under _)
      rintro passes _ rfl policy _ rfl order order' - verbosity verbosity' -
      exact ⟨rfl, rfl⟩

/-- **The manner of a configuration does not decide what is executed.** -/
theorem load_alike {fs fs' : Files} {path : Option Text}
    (h : EndAlike SameApartFromManner (source fs path) (source fs' path)) (named : Option (List Text)) :
    EndAlike SameSelection (load fs path named) (load fs' path named) := by
  refine h.bind fun j k hjk => ?_
  refine (hjk.document_alike.toExcept.mapError Failure.invalid).bind fun d e hde => ?_
  obtain ⟨hpasses, hpolicy⟩ := hde
  have henabled : enabledPasses named d = enabledPasses named e := by
    unfold enabledPasses
    rw [hpasses]
  rw [henabled]
  have hnamed : EndAlike Eq (enabledPasses named e) (enabledPasses named e) := endAlike_refl (fun _ => rfl) _
  exact hnamed.bind fun passes _ hsame => .ok ⟨hsame, hpolicy⟩

end Settings

/-! ## Setting up -/

namespace Setup

/-- Two runs that are set up from such configurations and from options that differ in the manner only execute the
same. -/
theorem prepare_alike {env env' : Environment} {options options' : Options}
    (hsource : EndAlike Settings.SameApartFromManner (Settings.source env.files options.config)
      (Settings.source env'.files options.config))
    (hconfig : options'.config = options.config) (hpasses : options'.passes = options.passes)
    (hpolicy : options'.successPolicy = options.successPolicy) :
    EndAlike (fun setup setup' => Settings.SameSelection setup.settings setup'.settings) (prepare env options)
      (prepare env' options') := by
  have hloaded := Settings.load_alike hsource options.passes
  unfold prepare
  rw [hconfig, hpasses]
  generalize Settings.load env.files options.config options.passes = loaded at hloaded
  generalize Settings.load env'.files options.config options.passes = loaded' at hloaded
  cases hloaded with
  | error failure => exact .error _
  | ok hsame =>
      obtain ⟨hnames, hloadedPolicy⟩ := hsame
      refine .ok ⟨hnames, ?_⟩
      show options.successPolicy.getD _ = options'.successPolicy.getD _
      rw [hpolicy, hloadedPolicy]

end Setup

end StorageFlow
