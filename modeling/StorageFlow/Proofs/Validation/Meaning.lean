/-
# StorageFlow.Proofs.Validation.Meaning — what is read from a document is written there.

A reader takes a value from a part of a document and lists issues.  A `Meaning` only says which parts stand for
which values, with defaults for parts that are missing.  Meanings are put together like readers, and every way
of putting readers together is sound for the same way of putting meanings together (`Reader.Sound`), so a schema
is sound once each of its objects is.
-/
import Mathlib.Data.List.Forall2
import Mathlib.Data.Option.Defs
import StorageFlow.Validation

namespace StorageFlow

universe u v

theorem Number.toNat_ofNat (n : Nat) : (Number.ofNat n).toNat = n := by
  show ((n : Int) * (Number.unit : Int) / (Number.unit : Int)).toNat = n
  rw [Int.mul_ediv_cancel _ Number.unit_ne_zero]
  rfl

/-- What is found for a key is listed with it. -/
theorem Table.mem_of_find?_eq_some {κ : Type u} {ν : Type v} [DecidableEq κ] {k : κ} {v : ν}
    {es : List (κ × ν)} (h : Table.find? k es = some v) : (k, v) ∈ es := by
  induction es with
  | nil => exact absurd h (by simp [Table.find?])
  | cons e es ih =>
      obtain ⟨k', v'⟩ := e
      rw [Table.find?] at h
      split at h
      · next hk =>
        obtain rfl := Option.some.inj h
        exact hk ▸ List.mem_cons_self
      · exact List.mem_cons_of_mem _ (ih h)

/-! ## Values without issues -/

namespace Checked

variable {α γ : Type u} {β : Type v}

@[simp] theorem invalid_ne_valid (cause : IssueCause) (a : α) : invalid cause ≠ valid a := by
  simp [invalid, valid]

@[simp] theorem valid_inj {a b : α} : valid a = valid b ↔ a = b := by simp [valid]

@[simp] theorem map_eq_valid_iff {f : α → β} {c : Checked α} {b : β} :
    c.map f = valid b ↔ ∃ a, c = valid a ∧ f a = b := by
  obtain ⟨value?, issues⟩ := c
  cases value? <;> simp [map, valid, and_comm]

@[simp] theorem seq_eq_valid_iff {f : Checked (α → β)} {c : Checked α} {b : β} :
    f.seq c = valid b ↔ ∃ g a, f = valid g ∧ c = valid a ∧ g a = b := by
  obtain ⟨f?, issues⟩ := f
  obtain ⟨value?, more⟩ := c
  cases f? <;> cases value? <;> simp [seq, valid, and_comm, and_assoc, and_left_comm]

@[simp] theorem under_eq_valid_iff {step : PathStep} {c : Checked α} {a : α} :
    c.under step = valid a ↔ c = valid a := by
  obtain ⟨value?, issues⟩ := c
  simp [under, valid]

theorem andThen_eq_valid_iff {c : Checked α} {f : α → Checked β} {b : β} :
    c.andThen f = valid b ↔ ∃ a, c = valid a ∧ f a = valid b := by
  obtain ⟨value?, issues⟩ := c
  cases value? with
  | none => simp [andThen, valid]
  | some a =>
    cases h : f a
    simp [andThen, valid, h, and_comm, and_assoc]

@[simp] theorem functor_map_eq_valid_iff {f : α → γ} {c : Checked α} {b : γ} :
    f <$> c = valid b ↔ ∃ a, c = valid a ∧ f a = b := map_eq_valid_iff

@[simp] theorem applicative_seq_eq_valid_iff {f : Checked (α → γ)} {c : Checked α} {b : γ} :
    f <*> c = valid b ↔ ∃ g a, f = valid g ∧ c = valid a ∧ g a = b := seq_eq_valid_iff

end Checked

/-! ## Meanings -/

/-- Which parts of documents, or the lack of a part, stand for which values. -/
abbrev Meaning (α : Type u) := Option Json → α → Prop

namespace Meaning

variable {α : Type u}

def text : Meaning Text := fun j t => j = some (.string t)

def flag : Meaning Bool := fun j b => j = some (.bool b)

def nat : Meaning Nat := fun j n => j = some (.ofNat n)

/-- A text that is the name of a value. -/
def choice (choices : List (Text × α)) : Meaning α := fun j a => ∃ s, j = some (.string s) ∧ (s, a) ∈ choices

/-- A part that may be missing. -/
def optional (P : Meaning α) : Meaning (Option α) := fun j a? => Option.Rel (fun j a => P (some j) a) j a?

/-- A part that stands for a default if it is missing. -/
def withDefault (default : α) (P : Meaning α) : Meaning α := fun j a =>
  (j = none ∧ a = default) ∨ (j ≠ none ∧ P j a)

/-- An array, item by item. -/
def array (P : Meaning α) : Meaning (List α) := fun j as =>
  ∃ js, j = some (.array js) ∧ List.Forall₂ (fun j a => P (some j) a) js as

/-- An object whose fields say something. -/
def object (body : Json → α → Prop) : Meaning α := fun j a =>
  ∃ fields, j = some (.object fields) ∧ body (.object fields) a

/-- A field of an object. -/
def field (key : Text) (P : Meaning α) (j : Json) (a : α) : Prop := P (j.field? key) a

end Meaning

/-- What a reader accepts means the value that was read. -/
def Reader.Sound {α : Type u} (r : Reader α) (P : Meaning α) : Prop := ∀ j a, r j = .valid a → P j a

namespace Reader

variable {α : Type u} {β : Type v} {r : Reader α} {P : Meaning α}

@[simp] theorem mismatch_ne_valid (expected : Text) (j : Option Json) (a : α) :
    mismatch expected j ≠ .valid a := by
  cases j <;> exact Checked.invalid_ne_valid _ a

theorem sound_text : Sound text Meaning.text := by
  intro j t h
  unfold text at h
  split at h
  · exact congrArg (fun s => some (Json.string s)) (Checked.valid_inj.1 h)
  · exact absurd h (mismatch_ne_valid _ _ _)

theorem sound_flag : Sound flag Meaning.flag := by
  intro j b h
  unfold flag at h
  split at h
  · exact congrArg (fun s => some (Json.bool s)) (Checked.valid_inj.1 h)
  · exact absurd h (mismatch_ne_valid _ _ _)

theorem sound_natural {j : Option Json} {x : Number} (h : natural j = .valid x) :
    ∃ n, x = .ofNat n ∧ j = some (.ofNat n) := by
  unfold natural at h
  split at h
  · next y =>
    have hboth : y = x ∧ naturalCauses y = [] := by
      simpa [Checked.flagged, Checked.valid] using h
    obtain ⟨rfl, hcauses⟩ := hboth
    have hwhole : y.isWhole = true := by
      by_contra hnot
      simp [naturalCauses, hnot] at hcauses
    have hnegative : ¬ y.multiple < 0 := by
      intro hneg
      simp [naturalCauses, Number.isNegative, hneg] at hcauses
    obtain ⟨i, hi⟩ := Option.isSome_iff_exists.1 hwhole
    obtain rfl := Number.toInt?_eq_some_iff.1 hi
    have hi0 : 0 ≤ i := by
      by_contra hlt
      exact hnegative (Int.mul_neg_of_neg_of_pos (by omega) (by exact_mod_cast Number.unit_pos))
    have hnat : Number.ofInt i = .ofNat i.toNat := by
      rw [Number.ofNat, Int.toNat_of_nonneg hi0]
    exact ⟨i.toNat, hnat, by rw [Json.ofNat, hnat]⟩
  · exact absurd h (mismatch_ne_valid _ _ _)

theorem sound_nat : Sound nat Meaning.nat := by
  intro j n h
  obtain ⟨x, hx, rfl⟩ := Checked.map_eq_valid_iff.1 h
  obtain ⟨m, rfl, hj⟩ := sound_natural hx
  rw [Number.toNat_ofNat]
  exact hj

theorem sound_choice (choices : List (Text × α)) : Sound (choice choices) (Meaning.choice choices) := by
  intro j a h
  unfold choice at h
  split at h
  · next s =>
    split at h
    · next b hb => exact ⟨s, rfl, Checked.valid_inj.1 h ▸ Table.mem_of_find?_eq_some hb⟩
    · exact absurd h (Checked.invalid_ne_valid _ _)
  · exact absurd h (mismatch_ne_valid _ _ _)

theorem Sound.optional (h : Sound r P) : Sound (optional r) (Meaning.optional P) := by
  intro j a? ha
  cases j with
  | none =>
      obtain rfl := Checked.valid_inj.1 ha
      exact .none
  | some j =>
      obtain ⟨a, hread, rfl⟩ := Checked.map_eq_valid_iff.1 ha
      exact .some (h _ _ hread)

theorem Sound.withDefault (h : Sound r P) (default : α) :
    Sound (withDefault default r) (Meaning.withDefault default P) := by
  intro j a ha
  cases j with
  | none => exact .inl ⟨rfl, (Checked.valid_inj.1 ha).symm⟩
  | some j => exact .inr ⟨by simp, h _ _ ha⟩

theorem Sound.itemsFrom (h : Sound r P) {position : Nat} {js : List Json} {as : List α}
    (has : itemsFrom r position js = .valid as) : List.Forall₂ (fun j a => P (some j) a) js as := by
  induction js generalizing position as with
  | nil =>
      obtain rfl := Checked.valid_inj.1 has
      exact .nil
  | cons j js ih =>
      obtain ⟨put, rest, hput, hrest, rfl⟩ := Checked.seq_eq_valid_iff.1 has
      obtain ⟨a, ha, rfl⟩ := Checked.map_eq_valid_iff.1 hput
      exact .cons (h _ _ (Checked.under_eq_valid_iff.1 ha)) (ih hrest)

theorem Sound.array (h : Sound r P) : Sound (array r) (Meaning.array P) := by
  intro j as has
  unfold Reader.array at has
  split at has
  · next js => exact ⟨js, rfl, h.itemsFrom has⟩
  · exact absurd has (mismatch_ne_valid _ _ _)

theorem Sound.arrayWith (h : Sound r P) (minimum : Nat) : Sound (arrayWith minimum r) (Meaning.array P) := by
  intro j as has
  unfold Reader.arrayWith at has
  split at has
  · next js =>
    split at has
    · exact absurd has (by simp [Checked.valid])
    · exact ⟨js, rfl, h.itemsFrom has⟩
  · exact absurd has (mismatch_ne_valid _ _ _)

theorem sound_object {body : Json → Checked α} {Q : Json → α → Prop}
    (h : ∀ j a, body j = .valid a → Q j a) : Sound (object body) (Meaning.object Q) := by
  intro j a ha
  unfold object at ha
  split at ha
  · next fields => exact ⟨fields, rfl, h _ _ ha⟩
  · exact absurd ha (mismatch_ne_valid _ _ _)

theorem Sound.field (h : Sound r P) {key : Text} {j : Json} {a : α} (ha : field key r j = .valid a) :
    Meaning.field key P j a :=
  h _ _ (Checked.under_eq_valid_iff.1 ha)

/-- An object that is accepted by a reader with variants has the name of one of them. -/
theorem sound_variant {key : Text} {variants : List (Text × (Json → Checked α))} {Q : Json → α → Prop}
    (h : ∀ name body, (name, body) ∈ variants → ∀ j a, j.field? key = some (.string name) →
      body j = .valid a → Q j a) : Sound (variant key variants) (Meaning.object Q) := by
  refine sound_object fun j a ha => ?_
  split at ha
  · next name hname =>
    split at ha
    · next body hbody => exact h name body (Table.mem_of_find?_eq_some hbody) j a hname ha
    · exact absurd (Checked.under_eq_valid_iff.1 ha) (Checked.invalid_ne_valid _ _)
  · exact absurd (Checked.under_eq_valid_iff.1 ha) (Checked.invalid_ne_valid _ _)

end Reader

end StorageFlow
