/-
# StorageFlow.Proofs.Occurrence.Lexicographic — the reporting order, key by key.

A comparison goes by a key in a linear order if its answers are those of the keys (`GoesBy`).  Such a comparison is a
total preorder, and comparing by one thing first and by another thing then goes by the pair of both keys in
lexicographic order.  The comparisons of locations and of occurrences are put together in this way, so they go by
tuples: a location by file, start and end, and an occurrence by site, variable, kind and identifier of the site.  In
these tuples an unknown file is a bottom element, a missing site is a top element, and a file name is the sequence of
its code units.
-/
import Mathlib.Data.List.Lex
import Mathlib.Data.Prod.Lex
import Mathlib.Order.WithBot
import StorageFlow.Proofs.Occurrence.Order

namespace StorageFlow

/-! ## Comparisons that go by keys -/

section GoesBy

variable {α κ ι : Type} [LinearOrder κ] [LinearOrder ι] {cmp other : α → α → Ordering} {key : α → κ} {last : α → ι}

/-- The answers of a comparison are those of a total preorder. -/
structure IsTotalPreorder {α : Type} (cmp : α → α → Ordering) : Prop where
  swap : ∀ a b, cmp b a = (cmp a b).swap
  le_trans : ∀ a b c, cmp a b ≠ .gt → cmp b c ≠ .gt → cmp a c ≠ .gt
  eq_trans : ∀ a b c, cmp a b = .eq → cmp b c = .eq → cmp a c = .eq

/-- The answers of a comparison are those of keys in a linear order. -/
structure GoesBy (cmp : α → α → Ordering) (key : α → κ) : Prop where
  eq_iff : ∀ a b, cmp a b = .eq ↔ key a = key b
  lt_iff : ∀ a b, cmp a b = .lt ↔ key a < key b

theorem GoesBy.gt_iff (h : GoesBy cmp key) (a b : α) : cmp a b = .gt ↔ key b < key a := by
  have heq := h.eq_iff a b
  have hlt := h.lt_iff a b
  cases hcmp : cmp a b with
  | lt => simpa using (hlt.1 hcmp).le
  | eq => simpa using (heq.1 hcmp).le
  | gt =>
      rw [hcmp] at heq hlt
      have hle : key b ≤ key a := not_lt.1 fun h => by simpa using hlt.2 h
      exact iff_of_true rfl (hle.lt_of_ne fun h => by simpa using heq.2 h.symm)

theorem GoesBy.ne_gt_iff (h : GoesBy cmp key) (a b : α) : cmp a b ≠ .gt ↔ key a ≤ key b := by
  rw [Ne, h.gt_iff, not_lt]

/-- What goes by keys is a total preorder. -/
theorem GoesBy.isTotalPreorder (h : GoesBy cmp key) : IsTotalPreorder cmp where
  swap a b := by
    rcases lt_trichotomy (key a) (key b) with hlt | heq | hgt
    · rw [(h.lt_iff a b).2 hlt, (h.gt_iff b a).2 hlt, Ordering.swap]
    · rw [(h.eq_iff a b).2 heq, (h.eq_iff b a).2 heq.symm, Ordering.swap]
    · rw [(h.gt_iff a b).2 hgt, (h.lt_iff b a).2 hgt, Ordering.swap]
  le_trans a b c := by
    simp only [h.ne_gt_iff]
    exact le_trans
  eq_trans a b c := by
    simp only [h.eq_iff]
    exact Eq.trans

/-- Comparing by one thing and then by another is comparing by the pair of both. -/
theorem GoesBy.then (h : GoesBy cmp key) (hother : GoesBy other last) :
    GoesBy (fun a b => (cmp a b).then (other a b)) fun a => toLex (key a, last a) where
  eq_iff a b := by rw [Ordering.then_eq_eq, h.eq_iff, hother.eq_iff, toLex_inj, Prod.mk.injEq]
  lt_iff a b := by rw [Ordering.then_eq_lt, h.lt_iff, h.eq_iff, hother.lt_iff, Prod.Lex.toLex_lt_toLex]

/-- What is compared through one of its features goes by the key of this feature. -/
theorem GoesBy.comap {β : Type} (h : GoesBy cmp key) (feature : β → α) :
    GoesBy (fun a b => cmp (feature a) (feature b)) fun a => key (feature a) :=
  ⟨fun a b => h.eq_iff (feature a) (feature b), fun a b => h.lt_iff (feature a) (feature b)⟩

/-- No two things tie if their keys are different. -/
theorem GoesBy.eq_iff_of_injective (h : GoesBy cmp key) (hkey : Function.Injective key) (a b : α) :
    cmp a b = .eq ↔ a = b := by
  rw [h.eq_iff, hkey.eq_iff]

end GoesBy

/-! ## Locations -/

/-- Numbers are compared by how many times they are the smallest positive one. -/
theorem Number.goesBy_compare : GoesBy (Ord.compare : Number → Number → Ordering) Number.multiple where
  eq_iff x _ := compare_eq_iff_eq (a := x.multiple)
  lt_iff x _ := compare_lt_iff_lt (a := x.multiple)

theorem Number.multiple_injective : Function.Injective Number.multiple := fun _ _ h => congrArg Number.mk h

namespace Text

/-- The code units of a text, as numbers. -/
def codes (s : Text) : List Nat := s.units.map UInt16.toNat

theorem codes_injective : Function.Injective codes := fun _ _ h =>
  congrArg Text.mk (List.map_injective_iff.2 (fun _ _ => UInt16.toNat_inj.1) h)

theorem compareLex_eq_lt_iff (us vs : List UInt16) :
    List.compareLex Ord.compare us vs = .lt ↔ us.map UInt16.toNat < vs.map UInt16.toNat := by
  induction us generalizing vs with
  | nil => cases vs <;> simp [List.compareLex]
  | cons u us ih =>
      cases vs with
      | nil => simp [List.compareLex]
      | cons v vs =>
          rw [List.compareLex_cons_cons, Ordering.then_eq_lt, ih, List.map_cons, List.map_cons, List.cons_lt_cons_iff,
            Std.compare_eq_lt, UInt16.lt_iff_toNat_lt, Std.LawfulEqOrd.compare_eq_iff_eq, UInt16.toNat_inj]

/-- Texts are compared by their code units. -/
theorem goesBy_compare : GoesBy compare codes where
  eq_iff s t := by
    rw [codes_injective.eq_iff]
    exact Std.LawfulEqOrd.compare_eq_iff_eq (a := s)
  lt_iff s t := compareLex_eq_lt_iff s.units t.units

end Text

namespace Location

/-- The key of a file name; an unknown one is below all others. -/
def fileKey : Option Text → WithBot (List Nat)
  | none => ⊥
  | some file => (file.codes : WithBot (List Nat))

theorem fileKey_injective : Function.Injective fileKey := by
  rintro (_ | a) (_ | b) h
  · rfl
  · exact absurd h WithBot.bot_ne_coe
  · exact absurd h WithBot.coe_ne_bot
  · exact congrArg some (Text.codes_injective (WithBot.coe_injective h))

theorem goesBy_compareFiles : GoesBy compareFiles fileKey where
  eq_iff a b := by
    cases a <;> cases b <;> simp [compareFiles, fileKey, Text.goesBy_compare.eq_iff]
  lt_iff a b := by
    cases a <;> cases b <;> simp [compareFiles, fileKey, Text.goesBy_compare.lt_iff]

/-- File, start and end, in lexicographic order. -/
abbrev Key : Type := WithBot (List Nat) ×ₗ Int ×ₗ Int

/-- What a location is compared by. -/
def key (l : Location) : Key := toLex (fileKey l.file, toLex (l.start.multiple, l.stop.multiple))

theorem key_injective : Function.Injective key := by
  rintro ⟨file, start, stop⟩ ⟨file', start', stop'⟩ h
  simp only [key, toLex_inj, Prod.mk.injEq] at h
  obtain ⟨hfile, hstart, hstop⟩ := h
  rw [fileKey_injective hfile, Number.multiple_injective hstart, Number.multiple_injective hstop]

/-- Locations are compared by file, start and end. -/
theorem goesBy_compare : GoesBy compare key :=
  (goesBy_compareFiles.comap file).then <|
    (Number.goesBy_compare.comap start).then (Number.goesBy_compare.comap stop)

end Location

/-! ## Occurrences -/

namespace Occurrence

/-- The key of the place of a site; a missing site is above all others. -/
def siteKey : Option Site → WithTop Location.Key
  | some site => (site.location.key : WithTop Location.Key)
  | none => ⊤

theorem goesBy_compareSites : GoesBy compareSites siteKey where
  eq_iff a b := by
    cases a <;> cases b <;> simp [compareSites, siteKey, Location.goesBy_compare.eq_iff]
  lt_iff a b := by
    cases a <;> cases b <;> simp [compareSites, siteKey, Location.goesBy_compare.lt_iff]

/-- Place of the site, variable, kind and identifier of the site, in lexicographic order. -/
abbrev Key : Type := WithTop Location.Key ×ₗ Int ×ₗ Int ×ₗ Int

/-- What an occurrence is compared by. -/
def key (o : Occurrence) : Key :=
  toLex (siteKey o.site, toLex (o.subject.id.multiple, toLex (o.kind.multiple, o.siteId.multiple)))

/-- Occurrences are compared by site, variable, kind and identifier of the site. -/
theorem goesBy_compare : GoesBy compare key :=
  (goesBy_compareSites.comap site).then <|
    (Number.goesBy_compare.comap fun o : Occurrence => o.subject.id).then <|
      (Number.goesBy_compare.comap kind).then (Number.goesBy_compare.comap siteId)

/-- Sites are the same if both are missing, or if they agree in place and identifier. -/
theorem siteKey_eq_and_siteId_eq_iff {a b : Occurrence} :
    siteKey a.site = siteKey b.site ∧ a.siteId = b.siteId ↔ a.site = b.site := by
  unfold siteId
  cases a.site with
  | none => cases b.site <;> simp [siteKey]
  | some s =>
      cases b.site with
      | none => simp [siteKey]
      | some t =>
          cases s
          cases t
          simp [siteKey, Location.key_injective.eq_iff, and_comm]

theorem compare_eq_iff {a b : Occurrence} :
    a.compare b = .eq ↔ a.site = b.site ∧ a.subject.id = b.subject.id ∧ a.kind = b.kind := by
  rw [goesBy_compare.eq_iff, ← siteKey_eq_and_siteId_eq_iff]
  simp only [key, toLex_inj, Prod.mk.injEq, Number.multiple_injective.eq_iff]
  tauto

end Occurrence

/-! ## Orders -/

/-- **Comparing is lexicographic.**  Locations and occurrences are totally preordered.  Locations tie if file, start and
end agree, and otherwise the first of them that differs decides, where an unknown file comes before every known one and
files go by their code units.  Occurrences tie if both have no site or the same place and identifier of the site, and
the identifiers of the variables and the kinds agree; otherwise the first decides of the place of the site, where a
missing site comes after every other, the identifier of the variable, the kind, and the identifier of the site. -/
theorem compare_lexicographic :
    IsTotalPreorder Location.compare ∧
    (∀ a b : Location, a.compare b = .eq ↔ a.file = b.file ∧ a.start = b.start ∧ a.stop = b.stop) ∧
    GoesBy Location.compare Location.key ∧
    IsTotalPreorder Occurrence.compare ∧
    (∀ a b : Occurrence, a.compare b = .eq ↔
      (a.site.isSome = b.site.isSome ∧
        ∀ s ∈ a.site, ∀ t ∈ b.site, s.location = t.location ∧ s.id = t.id) ∧
      a.subject.id = b.subject.id ∧ a.kind = b.kind) ∧
    GoesBy Occurrence.compare Occurrence.key := by
  refine ⟨Location.goesBy_compare.isTotalPreorder, fun a b => ?_, Location.goesBy_compare,
    Occurrence.goesBy_compare.isTotalPreorder, fun a b => ?_, Occurrence.goesBy_compare⟩
  · rw [Location.goesBy_compare.eq_iff_of_injective Location.key_injective]
    cases a
    cases b
    rw [Location.mk.injEq]
  · have hsite : (a.site.isSome = b.site.isSome ∧
        ∀ s ∈ a.site, ∀ t ∈ b.site, s.location = t.location ∧ s.id = t.id) ↔ a.site = b.site := by
      cases a.site with
      | none => cases b.site <;> simp
      | some s =>
          cases b.site with
          | none => simp
          | some t =>
              cases s
              cases t
              simp [and_comm]
    rw [hsite, Occurrence.compare_eq_iff]

/-- The order of code units is not that of characters: a pair of surrogates comes before the last character that is a
single unit. -/
example : Text.compare "\uffff" "😀" = .gt := by decide

end StorageFlow
