/-
# StorageFlow.Proofs.Occurrence.Order — occurrences in reporting order.

Occurrences are compared by a few of their features only, so different occurrences may tie; what a comparison looks
at is the `Rank` of an occurrence.  Ranks are totally ordered, and no two of them tie.  Therefore the ranks of some
occurrences in reporting order do not depend on the order in which the occurrences were collected, even where the
occurrences themselves do (`map_rank_reportingOrder`).
-/
import Mathlib.Data.List.Perm.Basic
import StorageFlow.Analysis

namespace StorageFlow

open Std

/-! ## Locations -/

instance : Ord Text := ⟨Text.compare⟩

instance : TransOrd Text := inferInstanceAs (TransCmp (compareOn Text.units))

instance : LawfulEqOrd Text where
  compare_self := ReflCmp.compare_self
  eq_of_compare {s t} h := by
    have hunits : List.compareLex Ord.compare s.units t.units = .eq := h
    exact congrArg Text.mk (LawfulEqCmp.eq_of_compare hunits)

instance : TransOrd Number := inferInstanceAs (TransCmp (compareOn Number.multiple))

instance : LawfulEqOrd Number where
  compare_self := ReflCmp.compare_self
  eq_of_compare {x y} h := by
    have hmultiple : Ord.compare x.multiple y.multiple = .eq := h
    exact congrArg Number.mk (LawfulEqOrd.eq_of_compare hmultiple)

namespace Location

/-- An unknown file comes first, as what is missing does in general. -/
theorem compareFiles_eq (a b : Option Text) : compareFiles a b = Ord.compare a b := by
  cases a <;> cases b <;> rfl

instance : Ord Location := ⟨Location.compare⟩

theorem compare_eq (a b : Location) : a.compare b =
    compareLex (compareOn file) (compareLex (compareOn start) (compareOn stop)) a b := by
  rw [compare, compareFiles_eq]
  rfl

instance : TransOrd Location := by
  have h : (Ord.compare : Location → Location → Ordering) = _ := funext₂ compare_eq
  unfold TransOrd
  rw [h]
  infer_instance

instance : LawfulEqOrd Location where
  compare_self := ReflCmp.compare_self
  eq_of_compare {a b} h := by
    have hparts : a.compare b = .eq := h
    rw [compare, compareFiles_eq, Ordering.then_eq_eq, Ordering.then_eq_eq] at hparts
    obtain ⟨hfile, hstart, hstop⟩ := hparts
    cases a
    cases b
    rw [Location.mk.injEq]
    exact ⟨LawfulEqOrd.eq_of_compare hfile, LawfulEqOrd.eq_of_compare hstart, LawfulEqOrd.eq_of_compare hstop⟩

end Location

/-! ## Ranks -/

namespace Occurrence

/-- What the place of an occurrence in a report depends on. -/
structure Rank where
  site : Option Location
  subject : Number
  kind : Number
  siteId : Number

def rank (o : Occurrence) : Rank := ⟨o.site.map Site.location, o.subject.id, o.kind, o.siteId⟩

namespace Rank

/-- Locations, what has none last. -/
def compareSites : Option Location → Option Location → Ordering
  | some a, some b => Ord.compare a b
  | some _, none => .lt
  | none, some _ => .gt
  | none, none => .eq

instance : TransCmp compareSites where
  eq_swap {a b} := by
    cases a <;> cases b
    case some.some a b => exact OrientedOrd.eq_swap
    all_goals rfl
  isLE_trans {a b c} hab hbc := by
    cases c with
    | none => cases a <;> rfl
    | some c =>
        cases b with
        | none => exact absurd hbc Bool.false_ne_true
        | some b =>
            cases a with
            | none => exact absurd hab Bool.false_ne_true
            | some a => exact TransOrd.isLE_trans hab hbc

instance : LawfulEqCmp compareSites where
  compare_self := ReflCmp.compare_self
  eq_of_compare {a b} h := by
    cases a <;> cases b
    case none.none => rfl
    case some.some a b => exact congrArg some (LawfulEqOrd.eq_of_compare h)
    all_goals exact absurd h (by simp [compareSites])

instance : TransCmp fun a b : Rank => compareSites a.site b.site where
  eq_swap {a b} := by
    have hswap : compareSites a.site b.site = (compareSites b.site a.site).swap := OrientedCmp.eq_swap
    exact hswap
  isLE_trans {a b c} hab hbc := by
    have htrans : (compareSites a.site c.site).isLE = true := TransCmp.isLE_trans hab hbc
    exact htrans

/-- Ranks by site, subject, kind and identifier of the site. -/
def compare : Rank → Rank → Ordering :=
  compareLex (fun a b => compareSites a.site b.site) <|
    compareLex (compareOn subject) (compareLex (compareOn kind) (compareOn siteId))

instance : TransCmp compare := by unfold compare; infer_instance

/-- No two ranks tie. -/
instance : LawfulEqCmp compare where
  compare_self := ReflCmp.compare_self
  eq_of_compare {a b} h := by
    simp only [compare, compareLex, Ordering.then_eq_eq] at h
    obtain ⟨hsite, hsubject, hkind, hsiteId⟩ := h
    cases a
    cases b
    rw [Rank.mk.injEq]
    exact ⟨LawfulEqCmp.eq_of_compare hsite, LawfulEqOrd.eq_of_compare hsubject, LawfulEqOrd.eq_of_compare hkind,
      LawfulEqOrd.eq_of_compare hsiteId⟩

end Rank

/-- Occurrences are compared by their ranks. -/
theorem compare_eq_compare_rank (a b : Occurrence) : a.compare b = a.rank.compare b.rank := by
  have hsites : compareSites a.site b.site = Rank.compareSites a.rank.site b.rank.site := by
    unfold rank
    cases a.site <;> cases b.site <;> rfl
  rw [compare, hsites]
  rfl

/-- Occurrences tie if and only if they have the same rank. -/
theorem compare_eq_eq_iff {a b : Occurrence} : a.compare b = .eq ↔ a.rank = b.rank := by
  rw [compare_eq_compare_rank]
  exact LawfulEqCmp.compare_eq_iff_eq

/-- What is not located by its site is located by its variable. -/
theorem location_eq_getD (o : Occurrence) :
    o.location = (o.site.map Site.location).getD o.subject.location := by
  rw [location]
  cases o.site <;> rfl

end Occurrence

/-! ## Reports -/

namespace Analysis

theorem pairwise_reportingOrder (os : List Occurrence) :
    (reportingOrder os).Pairwise fun a b => (a.rank.compare b.rank).isLE = true := by
  simp only [← Occurrence.compare_eq_compare_rank]
  apply List.pairwise_mergeSort
  · intro a b c hab hbc
    rw [Occurrence.compare_eq_compare_rank] at hab hbc ⊢
    exact TransCmp.isLE_trans hab hbc
  · intro a b
    have hswap : b.rank.compare a.rank = (a.rank.compare b.rank).swap := OrientedCmp.eq_swap
    rw [Occurrence.compare_eq_compare_rank, Occurrence.compare_eq_compare_rank, hswap]
    cases a.rank.compare b.rank <;> rfl

/-- **The ranks in a report do not depend on the order in which it was collected.** -/
theorem map_rank_reportingOrder {os other : List Occurrence} (h : os.Perm other) :
    (reportingOrder os).map Occurrence.rank = (reportingOrder other).map Occurrence.rank := by
  have hperm : (reportingOrder os).Perm (reportingOrder other) :=
    (List.mergeSort_perm os _).trans (h.trans (List.mergeSort_perm other _).symm)
  have hantisymm (a b : Occurrence.Rank) (hab : (a.compare b).isLE = true) (hba : (b.compare a).isLE = true) :
      a = b := LawfulEqCmp.eq_of_compare (OrientedCmp.isLE_antisymm hab hba)
  refine List.Perm.eq_of_pairwise (fun a b _ _ => hantisymm a b) ?_ ?_ (hperm.map Occurrence.rank)
  · exact List.pairwise_map.2 (pairwise_reportingOrder os)
  · exact List.pairwise_map.2 (pairwise_reportingOrder other)

end Analysis

end StorageFlow
