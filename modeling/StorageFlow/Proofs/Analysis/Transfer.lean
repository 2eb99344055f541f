/-
# StorageFlow.Proofs.Analysis.Transfer — what a list of occurrences says about variables.

Whether a variable is unassigned after some occurrences is settled by the last of them that declares it,
assigns it or mentions it in inline code; if there is none, it is what it was before.  `LeavesUnassigned`
says so of one list, relative to what was the case before it, and `Exposes` says where in a list an access
finds its variable unassigned.  The transfer function of the analysis computes both
(`mem_unassigned_transfer`, `mem_accesses_transfer`).

Two laws carry over to whole paths.  The effect of two lists in a row is the effect of their concatenation;
and the effect is distributive: what holds after a list because *some* way of entering it makes it hold, holds
after that way and the list.
-/
import StorageFlow.Analysis

namespace StorageFlow.Analysis

universe u

variable {v : Variable} {o x : Occurrence} {os xs ys : List Occurrence} {entering : Prop}
  {state : Variable → Prop} {facts out : PointFacts}

/-! ## The touch that settles -/

/-- The touch by which an occurrence settles whether a variable is assigned.  An access does not. -/
def settlingTouch (v : Variable) (o : Occurrence) : Option Touch :=
  if o.subject = v ∧ o.touch? ≠ some .access then o.touch? else none

/-- The touch that settles whether a variable is assigned after some occurrences: that of its last
declaration, assignment or mention in inline code. -/
def lastSettling (v : Variable) (os : List Occurrence) : Option Touch :=
  (os.filterMap (settlingTouch v)).getLast?

/-- Some occurrences leave a variable unassigned, whatever was the case before them. -/
def UnassignedAfter (v : Variable) (os : List Occurrence) : Prop :=
  lastSettling v os = some .declaration

/-- Some occurrences leave a variable unassigned that was unassigned before them if `entering` holds. -/
def LeavesUnassigned (v : Variable) (entering : Prop) (os : List Occurrence) : Prop :=
  UnassignedAfter v os ∨ lastSettling v os = none ∧ entering

@[simp] theorem lastSettling_nil : lastSettling v [] = none := rfl

@[simp] theorem lastSettling_singleton : lastSettling v [o] = settlingTouch v o := by
  cases h : settlingTouch v o <;> simp [lastSettling, h]

/-- Later occurrences decide, earlier ones only where no later one does. -/
theorem lastSettling_append :
    lastSettling v (xs ++ ys) = (lastSettling v ys).or (lastSettling v xs) := by
  rw [lastSettling, List.filterMap_append, List.getLast?_append]
  rfl

theorem subject_and_touch?_of_settlingTouch {t : Touch} (h : settlingTouch v o = some t) :
    o.subject = v ∧ o.touch? = some t := by
  unfold settlingTouch at h
  split at h
  · next hsettles => exact ⟨hsettles.1, h⟩
  · exact absurd h (by simp)

/-- A variable is settled only by an occurrence that touches it in the way that settles it. -/
theorem exists_touch_of_lastSettling {t : Touch} (h : lastSettling v os = some t) :
    ∃ o ∈ os, o.subject = v ∧ o.touch? = some t := by
  obtain ⟨o, ho, hsettles⟩ := List.mem_filterMap.1 (List.mem_of_getLast? h)
  exact ⟨o, ho, subject_and_touch?_of_settlingTouch hsettles⟩

@[simp] theorem leavesUnassigned_nil : LeavesUnassigned v entering [] ↔ entering := by
  simp [LeavesUnassigned, UnassignedAfter]

@[simp] theorem leavesUnassigned_false : LeavesUnassigned v False os ↔ UnassignedAfter v os := by
  simp [LeavesUnassigned]

theorem leavesUnassigned_append :
    LeavesUnassigned v entering (xs ++ ys) ↔ LeavesUnassigned v (LeavesUnassigned v entering xs) ys := by
  unfold LeavesUnassigned UnassignedAfter
  rw [lastSettling_append]
  cases lastSettling v ys with
  | none => simp
  | some t => simp

theorem leavesUnassigned_cons :
    LeavesUnassigned v entering (o :: os) ↔ LeavesUnassigned v (LeavesUnassigned v entering [o]) os := by
  rw [← leavesUnassigned_append, List.singleton_append]

theorem LeavesUnassigned.imp {more : Prop} (himp : entering → more)
    (h : LeavesUnassigned v entering os) : LeavesUnassigned v more os :=
  Or.imp_right (And.imp_right himp) h

/-- **Distributivity**: one of the ways of entering is enough. -/
theorem leavesUnassigned_exists {ι : Sort u} [Nonempty ι] {ways : ι → Prop} :
    LeavesUnassigned v (∃ i, ways i) os ↔ ∃ i, LeavesUnassigned v (ways i) os := by
  constructor
  · rintro (hsettled | ⟨hnone, i, hi⟩)
    · exact ‹Nonempty ι›.elim fun i => ⟨i, .inl hsettled⟩
    · exact ⟨i, .inr ⟨hnone, hi⟩⟩
  · rintro ⟨i, hi⟩
    exact hi.imp fun hway => ⟨i, hway⟩

/-! ## Accesses that find their variable unassigned -/

/-- An occurrence is an access to a storage pointer. -/
def IsStorageAccess (o : Occurrence) : Prop :=
  o.touch? = some .access ∧ o.subject.isStorageLocated = true

/-- An occurrence stands in a list where its variable is unassigned, if `state` says which variables are
before the list. -/
def Exposes (state : Variable → Prop) (os : List Occurrence) (o : Occurrence) : Prop :=
  ∃ earlier later, os = earlier ++ o :: later ∧ LeavesUnassigned o.subject (state o.subject) earlier

/-- What is exposed in a list stands in it. -/
theorem Exposes.mem (h : Exposes state os o) : o ∈ os := by
  obtain ⟨earlier, later, rfl, -⟩ := h
  exact List.mem_append_right earlier List.mem_cons_self

@[simp] theorem not_exposes_nil : ¬ Exposes state [] o := by
  simp [Exposes]

theorem exposes_cons :
    Exposes state (x :: xs) o ↔
      x = o ∧ state o.subject ∨ Exposes (fun v => LeavesUnassigned v (state v) [x]) xs o := by
  constructor
  · rintro ⟨earlier, later, heq, hstate⟩
    cases earlier with
    | nil =>
        obtain ⟨rfl, rfl⟩ := List.cons.inj heq
        exact .inl ⟨rfl, leavesUnassigned_nil.1 hstate⟩
    | cons y earlier =>
        obtain ⟨rfl, rfl⟩ := List.cons.inj heq
        exact .inr ⟨earlier, later, rfl, leavesUnassigned_append.1 hstate⟩
  · rintro (⟨rfl, hstate⟩ | ⟨earlier, later, rfl, hstate⟩)
    · exact ⟨[], xs, rfl, leavesUnassigned_nil.2 hstate⟩
    · exact ⟨x :: earlier, later, rfl, leavesUnassigned_append.2 hstate⟩

theorem exposes_append :
    Exposes state (xs ++ ys) o ↔
      Exposes state xs o ∨ Exposes (fun v => LeavesUnassigned v (state v) xs) ys o := by
  induction xs generalizing state with
  | nil => simp
  | cons x xs ih =>
      have hstate : (fun v => LeavesUnassigned v (LeavesUnassigned v (state v) [x]) xs) =
          fun v => LeavesUnassigned v (state v) (x :: xs) :=
        funext fun v => propext leavesUnassigned_append.symm
      rw [List.cons_append, exposes_cons, exposes_cons, ih, hstate, or_assoc]

theorem Exposes.imp {more : Variable → Prop} (himp : ∀ v, state v → more v)
    (h : Exposes state os o) : Exposes more os o := by
  obtain ⟨earlier, later, heq, hstate⟩ := h
  exact ⟨earlier, later, heq, hstate.imp (himp o.subject)⟩

/-- **Distributivity**: one of the ways of entering is enough. -/
theorem exposes_exists {ι : Sort u} [Nonempty ι] {ways : ι → Variable → Prop} :
    Exposes (fun v => ∃ i, ways i v) os o ↔ ∃ i, Exposes (ways i) os o := by
  constructor
  · rintro ⟨earlier, later, heq, hstate⟩
    obtain ⟨i, hi⟩ := leavesUnassigned_exists.1 hstate
    exact ⟨i, earlier, later, heq, hi⟩
  · rintro ⟨i, hi⟩
    exact hi.imp fun v hway => ⟨i, hway⟩

/-! ## The transfer function -/

/-- An access settles nothing. -/
theorem unassigned_applyTouch_access (facts : PointFacts) (o : Occurrence) :
    (applyTouch facts o .access).unassigned = facts.unassigned := by
  unfold applyTouch
  dsimp only
  split <;> rfl

/-- Nothing but an access exposes anything. -/
theorem accesses_applyTouch_of_ne_access {t : Touch} (ht : t ≠ .access) :
    (applyTouch facts x t).accesses = facts.accesses := by
  cases t with
  | declaration => rfl
  | assignment => rfl
  | inlineReference => rfl
  | access => exact absurd rfl ht

theorem mem_unassigned_applyTouch {t : Touch} (ht : o.touch? = some t) :
    v ∈ (applyTouch facts o t).unassigned ↔ LeavesUnassigned v (v ∈ facts.unassigned) [o] := by
  unfold LeavesUnassigned UnassignedAfter
  rw [lastSettling_singleton, settlingTouch, ht]
  by_cases e : v = o.subject
  · cases t with
    | declaration => simp [applyTouch, e]
    | assignment => simp [applyTouch, e]
    | inlineReference => simp [applyTouch, e]
    | access => simp [unassigned_applyTouch_access]
  · have e' : ¬ o.subject = v := Ne.symm e
    cases t with
    | declaration => simp [applyTouch, e, e']
    | assignment => simp [applyTouch, e, e']
    | inlineReference => simp [applyTouch, e, e']
    | access => simp [unassigned_applyTouch_access]

theorem mem_accesses_applyTouch {t : Touch} (ht : x.touch? = some t) :
    o ∈ (applyTouch facts x t).accesses ↔
      o ∈ facts.accesses ∨ IsStorageAccess o ∧ x = o ∧ o.subject ∈ facts.unassigned := by
  by_cases haccess : t = .access
  · subst haccess
    unfold applyTouch IsStorageAccess
    dsimp only
    split
    · next hexposed =>
      rw [FiniteSet.mem_insert]
      refine or_congr_right ⟨?_, fun h => h.2.1.symm⟩
      rintro rfl
      exact ⟨⟨ht, hexposed.2⟩, rfl, hexposed.1⟩
    · next hsafe =>
      refine (or_iff_left ?_).symm
      rintro ⟨⟨-, hstorage⟩, rfl, hmem⟩
      exact hsafe ⟨hmem, hstorage⟩
  · rw [accesses_applyTouch_of_ne_access haccess]
    refine (or_iff_left ?_).symm
    rintro ⟨⟨htouch, -⟩, rfl, -⟩
    exact haccess (Option.some.inj (ht.symm.trans htouch))

/-- The transfer function goes on with what the first occurrence leaves behind. -/
theorem exists_touch_of_transfer_cons (h : transfer facts (x :: xs) = .ok out) :
    ∃ t, x.touch? = some t ∧ transfer (applyTouch facts x t) xs = .ok out := by
  rw [transfer, applyOccurrence] at h
  cases htouch : x.touch? with
  | none =>
      rw [htouch] at h
      exact absurd h (by simp [Except.bind])
  | some t =>
      rw [htouch] at h
      exact ⟨t, rfl, h⟩

/-- The transfer function fails only on a kind of touch that has no meaning. -/
theorem exists_transfer (hknown : ∀ o ∈ os, ∃ t, o.touch? = some t) :
    ∃ out, transfer facts os = .ok out := by
  induction os generalizing facts with
  | nil => exact ⟨facts, rfl⟩
  | cons x xs ih =>
      obtain ⟨t, ht⟩ := hknown x List.mem_cons_self
      have hrest (o : Occurrence) (ho : o ∈ xs) : ∃ t, o.touch? = some t :=
        hknown o (List.mem_cons_of_mem x ho)
      obtain ⟨out, hout⟩ : ∃ out, transfer (applyTouch facts x t) xs = .ok out := ih hrest
      refine ⟨out, ?_⟩
      rw [transfer, applyOccurrence, ht]
      exact hout

/-- **The variables that the transfer function finds unassigned** are those that the occurrences leave so. -/
theorem mem_unassigned_transfer (h : transfer facts os = .ok out) :
    v ∈ out.unassigned ↔ LeavesUnassigned v (v ∈ facts.unassigned) os := by
  induction os generalizing facts with
  | nil =>
      obtain rfl : facts = out := Except.ok.inj h
      exact leavesUnassigned_nil.symm
  | cons x xs ih =>
      obtain ⟨t, ht, hrest⟩ := exists_touch_of_transfer_cons h
      rw [leavesUnassigned_cons, ih hrest, mem_unassigned_applyTouch ht]

/-- **The accesses that the transfer function adds** are those that find their storage pointer unassigned. -/
theorem mem_accesses_transfer (h : transfer facts os = .ok out) :
    o ∈ out.accesses ↔
      o ∈ facts.accesses ∨ IsStorageAccess o ∧ Exposes (fun v => v ∈ facts.unassigned) os o := by
  induction os generalizing facts with
  | nil =>
      obtain rfl : facts = out := Except.ok.inj h
      simp
  | cons x xs ih =>
      obtain ⟨t, ht, hrest⟩ := exists_touch_of_transfer_cons h
      have hstate : (fun v => v ∈ (applyTouch facts x t).unassigned) =
          fun v => LeavesUnassigned v (v ∈ facts.unassigned) [x] :=
        funext fun v => propext (mem_unassigned_applyTouch ht)
      rw [ih hrest, mem_accesses_applyTouch ht, hstate, exposes_cons, or_assoc, and_or_left]

end StorageFlow.Analysis
